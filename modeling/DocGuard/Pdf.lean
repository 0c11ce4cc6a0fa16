import DocGuard.Commands

/-!
The objects of a PDF file as the parser library hands them out, and the walk over
the actions that hang together through arrays and `/Next`.
-/
namespace DocGuard.Pdf
open DocGuard.Commands

/-! ### Objects -/

/-- An element of an array or of a dictionary: an object, or a reference to an indirect one. -/
inductive Item (α : Type) where
  | direct (value : α)
  | reference (number generation : Nat)

inductive Obj where
  | null
  /-- A boolean or a number, as it is printed. -/
  | scalar (text : Text)
  /-- A name with its slash. -/
  | name (name : Text)
  | string (bytes : List UInt8)
  | array (items : List (Item Obj))
  | dictionary (entries : List (Text × Item Obj))
  | stream (entries : List (Text × Item Obj)) (data : List UInt8)

/-- The indirect objects of a file, by number and generation. -/
structure Document where
  objects : List ((Nat × Nat) × Obj)

/-- A number that the file does not define reads as null. -/
def Document.object (doc : Document) (number generation : Nat) : Obj :=
  (doc.objects.lookup (number,generation)).getD .null

def Document.value (doc : Document) : Item Obj → Obj
  | .direct value => value
  | .reference number generation => doc.object number generation

/-- `isinstance(value, _MAPPING_OBJECTS)`, with the entries -/
def mapping : Obj → Option (List (Text × Item Obj))
  | .dictionary entries => some entries
  | .stream entries _ => some entries
  | _ => none

def isNull : Obj → Bool
  | .null => true
  | _ => false

def isName : Obj → Bool
  | .name _ => true
  | _ => false

/-- `value.get(key)`; an entry that is null counts as absent. -/
def get (doc : Document) (value : Obj) (key : Text) : Option (Item Obj) :=
  ((mapping value).bind (List.lookup key)).filter fun item => !isNull (doc.value item)

/-- `_is_action` -/
def isAction (doc : Document) (value : Obj) : Bool :=
  (get doc value (lit "/S")).any fun item => isName (doc.value item)

/-- What the library hands out for an object: its number and generation if it is indirect, and its address in memory. -/
structure Wrapper where
  objgen : Option (Nat × Nat)
  value : Obj
  address : Nat

inductive ObjectKey where
  | indirect (number generation : Nat)
  /-- `id(value)` -/
  | direct (address : Nat)
deriving DecidableEq

/-- `_object_key` -/
def objectKey (wrapper : Wrapper) : ObjectKey :=
  match wrapper.objgen with
  | some (number,generation) => .indirect number generation
  | none => .direct wrapper.address

/-! ### Limits and observations -/

structure PdfAnalysisLimits where
  maxPages : Nat := 10000
  maxObjects : Nat := 100000
  maxActionDepth : Nat := 32
  maxActionNodes : Nat := 512
  maxActionTypeNames : Nat := 32
  maxMetadataStringLength : Nat := 256
  maxUriCount : Nat := 128
  maxUriMetadataEntries : Nat := 32
  maxEmbeddedFiles : Nat := 128
  maxEmbeddedNames : Nat := 32
  maxAdditionalTriggers : Nat := 128
  maxAdditionalTriggerNames : Nat := 32
  maxJavascriptScanBytes : Nat := 64 * 1024
  maxFallbackScanBytes : Nat := 8 * 1024 * 1024
  positive : ∀ value ∈ [maxPages,maxObjects,maxActionDepth,maxActionNodes,maxActionTypeNames,maxMetadataStringLength,
    maxUriCount,maxUriMetadataEntries,maxEmbeddedFiles,maxEmbeddedNames,maxAdditionalTriggers,maxAdditionalTriggerNames,
    maxJavascriptScanBytes,maxFallbackScanBytes], 0 < value := by decide

/-- `_PARSER_EXCEPTIONS` -/
inductive ParserException where
  | PdfError
  | DataDecodingError
  | DeletedObjectError
deriving DecidableEq

/-- What the parser library raises. -/
inductive LibraryError where
  | parser (exception : ParserException)
  | dependency
  | valueError
  | other
deriving DecidableEq

inductive Raised where
  | library (error : LibraryError)
  /-- `RecursionError`: the frames of the interpreter are used up. -/
  | recursion
deriving DecidableEq

/-- What pikepdf and the standard library do: where a new wrapper is put while others are alive, the text and the bytes
    of objects, and the functions on texts. -/
structure Library where
  pick : Nat → List Nat → Nat
  fresh : ∀ n live, pick n live ∉ live
  /-- `str` of an object that is no name and no scalar -/
  str : Obj → Except LibraryError Text
  readBytes : Obj → Except LibraryError (List UInt8)
  /-- Scheme and hostname, unless `urlsplit` raises. -/
  urlsplit : Text → Option (Text × Option Text)
  casefold : Text → Text
  /-- `unicodedata.category(character).startswith("C")` -/
  isOther : Char → Bool

/-- What is kept of a target that looks like a URL. -/
inductive TargetMetadata where
  | missing
  | invalid
  | parsed (scheme hostname : Option Text)
deriving DecidableEq

/-- The part of `_InspectionState` that the walk reads and writes, and the number of the wrappers so far. -/
structure Inspection where
  wrappers : Nat := 0
  additionalActionTypes : List Text := []
  actionNodesVisited : Nat := 0
  /-- The counter of the types, one entry for each type. -/
  actionTypes : List (Text × Nat) := []
  visitedActions : List ObjectKey := []
  javascriptActionCount : Nat := 0
  javascriptSources : List Text := []
  javascriptBehaviorIndicators : List Text := []
  launchActionCount : Nat := 0
  externalUriCount : Nat := 0
  uriMetadata : List TargetMetadata := []
  uriMetadataCapped : Bool := false
  externalSubmissionCount : Nat := 0
  submitFormTargets : List TargetMetadata := []
  submitFormTargetsCapped : Bool := false
  partialReasons : List Text := []

abbrev Walk := Command Inspection Raised

/-- `state.partial(reason)` -/
def markPartial (reason : Text) : Walk Unit :=
  Command.update fun s => { s with partialReasons := s.partialReasons.insert reason }

variable (lib : Library) (doc : Document) (limits : PdfAnalysisLimits)

def asked {α : Type} (result : Except LibraryError α) : Walk α := Command.lift (result.mapError .library)

/-- A new wrapper, at an address of which none of the wrappers alive is. -/
def access (item : Item Obj) (live : List Nat) : Walk Wrapper := do
  let n ← Command.observe Inspection.wrappers
  Command.update fun s => { s with wrappers := n + 1 }
  return {
    objgen := match item with
      | .direct _ => none
      | .reference number generation => some (number,generation)
    value := doc.value item
    address := lib.pick n live }

/-! ### What is recorded about one action -/

def _KNOWN_ACTION_TYPES : List (Text × Text) :=
  [(lit "/GoTo",lit "GoTo"),
   (lit "/GoToE",lit "GoToE"),
   (lit "/GoToR",lit "GoToR"),
   (lit "/ImportData",lit "ImportData"),
   (lit "/JavaScript",lit "JavaScript"),
   (lit "/Launch",lit "Launch"),
   (lit "/SubmitForm",lit "SubmitForm"),
   (lit "/URI",lit "URI")]

def _BIDI_CONTROLS : List Char :=
  ['\u200e','\u200f','\u202a','\u202b','\u202c','\u202d','\u202e','\u2066','\u2067','\u2068','\u2069']

def _JS_BEHAVIOR_KEYWORDS : List (Text × List Text) :=
  [(lit "external_submission_api",
     [lit "submitForm",lit "\"submitForm\"",lit "importDataObject",lit "\"importDataObject\""]),
   (lit "external_url_open_api",
     [lit "getURL",lit "\"getURL\"",lit "launchURL",lit "\"launchURL\"",lit "openDoc",lit "\"openDoc\""]),
   (lit "external_network_api",
     [lit "fetch(",lit "XMLHttpRequest",lit "WebSocket",lit "SOAP.connect",lit "SOAP.request",
      lit "SOAP.streamDecode",lit "new Image"]),
   (lit "document_content_access",
     [lit "getField(",lit "getPageNumWords(",lit "getPageNthWord(",lit "getAnnots(",lit "getOCGs("])]

/-- `_bounded_text` -/
def boundedText (value : Text) (hardLimit : Nat) : Text :=
  (value.filter fun c => !_BIDI_CONTROLS.contains c && !lib.isOther c).take (min limits.maxMetadataStringLength hardLimit)

/-- `str(value)` -/
def str : Obj → Except LibraryError Text
  | .name text => .ok text
  | .scalar text => .ok text
  | value => lib.str value

/-- `_safe_name` -/
def safeName (value : Text) : Text :=
  let bare := value.dropWhile (· = '/')
  boundedText lib limits (if bare = [] then lit "unknown" else bare) 128

/-- `_action_type`, with the types that were counted before -/
def actionType (action : Obj) (actionTypes : List (Text × Nat)) : Except LibraryError Text := do
  let subtype := (get doc action (lit "/S")).map doc.value
  let rawName := match subtype with
    | some (.name text) => text
    | _ => []
  match _KNOWN_ACTION_TYPES.lookup rawName with
  | some known => return known
  | none =>
    let safe ← match subtype with
      | some value => (str lib value).map (safeName lib limits)
      | none => .ok (lit "missing")
    let unknownNames := (actionTypes.filter fun entry => Text.startsWith entry.1 (lit "Unknown:")).length
    if limits.maxActionTypeNames ≤ unknownNames then return lit "Unknown:other"
    else return lit "Unknown:" ++ safe

/-- `counter[key] += 1` -/
def countKey (key : Text) : List (Text × Nat) → List (Text × Nat)
  | [] => [(key,1)]
  | (k,n) :: rest => if k = key then (k,n + 1) :: rest else (k,n) :: countKey key rest

/-- `_parse_target_metadata` -/
def parseTargetMetadata (rawValue : Text) : TargetMetadata :=
  match lib.urlsplit (rawValue.take limits.maxMetadataStringLength) with
  | none => .invalid
  | some (scheme,hostname) =>
    let scheme := boundedText lib limits (lib.casefold scheme) 32
    let hostname := boundedText lib limits (hostname.getD []) 128
    .parsed (if scheme = [] then none else some scheme) (if hostname = [] then none else some hostname)

/-- `_record_uri` -/
def recordUri (uri : Option Obj) : Walk Unit := do
  let s ← Command.observe id
  if limits.maxUriCount < s.externalUriCount then markPartial (lit "uri_action_limit")
  else if limits.maxUriMetadataEntries ≤ s.uriMetadata.length then
    Command.update fun s => { s with uriMetadataCapped := true }
  else do
    let metadata ← asked (match uri with
      | none => .ok .missing
      | some value => (str lib value).map (parseTargetMetadata lib limits))
    Command.update fun s => { s with uriMetadata := s.uriMetadata ++ [metadata] }

/-- `except _PARSER_EXCEPTIONS: return None` -/
def unlessParserError {α : Type} (result : Except LibraryError α) : Walk (Option α) :=
  match result with
  | .ok a => pure (some a)
  | .error (.parser _) => pure none
  | .error e => Command.raise (.library e)

/-- `_record_submit_form_target` -/
def recordSubmitFormTarget (action : Obj) : Walk Unit := do
  let s ← Command.observe id
  if limits.maxUriMetadataEntries ≤ s.submitFormTargets.length then
    Command.update fun s => { s with submitFormTargetsCapped := true }
  else
    let given := (get doc action (lit "/F")).map doc.value
    let target := match given with
      | some value => if (mapping value).isSome then (get doc value (lit "/F")).map doc.value else some value
      | none => none
    match target with
    | none => pure ()
    | some value => do
      match ← unlessParserError (str lib value) with
      | none => pure ()
      | some rawValue =>
        match parseTargetMetadata lib limits rawValue with
        | .parsed (some scheme) hostname => Command.update fun s => { s with
            submitFormTargets := s.submitFormTargets ++ [.parsed (some scheme) hostname]
            externalSubmissionCount := s.externalSubmissionCount + 1 }
        | _ => pure ()

/-- `_read_javascript_source` -/
def readJavascriptSource (action : Obj) : Walk (Option Text) :=
  match (get doc action (lit "/JS")).map doc.value with
  | none => pure none
  | some (.stream entries data) =>
    -- Latin-1 gives every byte its own code point.
    unlessParserError ((lib.readBytes (.stream entries data)).map fun raw =>
      (raw.take limits.maxJavascriptScanBytes).map fun byte => Char.ofNat byte.toNat)
  | some js => unlessParserError ((str lib js).map (List.take limits.maxJavascriptScanBytes))

/-- `_javascript_behavior_indicators` -/
def javascriptBehaviorIndicators (source : Text) : List Text :=
  (_JS_BEHAVIOR_KEYWORDS.filter fun entry => entry.2.any fun keyword => decide (keyword <:+: source)).map Prod.fst

/-- `_walk_action`: what is recorded for some of the types -/
def recordByType (action : Obj) (source type : Text) : Walk Unit :=
  if type = lit "JavaScript" then do
    Command.update fun s => { s with
      javascriptActionCount := s.javascriptActionCount + 1
      javascriptSources := s.javascriptSources.insert source }
    let script ← readJavascriptSource lib doc limits action
    Command.update fun s => { s with javascriptBehaviorIndicators :=
      s.javascriptBehaviorIndicators ∪ (script.map javascriptBehaviorIndicators).getD [] }
  else if type = lit "Launch" then
    Command.update fun s => { s with launchActionCount := s.launchActionCount + 1 }
  else if type = lit "URI" then do
    Command.update fun s => { s with externalUriCount := s.externalUriCount + 1 }
    recordUri lib limits ((get doc action (lit "/URI")).map doc.value)
  else if type = lit "SubmitForm" then recordSubmitFormTarget lib doc limits action
  else pure ()

/-- `_walk_action`, from the type of the action to its `/Next` -/
def recordAction (action : Obj) (source : Text) : Walk Unit := do
  let counted ← Command.observe Inspection.actionTypes
  let type ← asked (actionType lib doc limits action counted)
  Command.update fun s => { s with
    actionTypes := countKey type s.actionTypes
    additionalActionTypes :=
      if Text.endsWith source (lit "AA") then s.additionalActionTypes.insert type else s.additionalActionTypes }
  recordByType lib doc limits action source type

/-! ### The walk -/

/-- `for child in action`: while a child is created, the one before it and the wrappers of the callers are alive. -/
def eachItem (body : Wrapper → List Nat → Walk Unit) (live : List Nat) : List Nat → List (Item Obj) → Walk Unit
  | _,[] => pure ()
  | previous,item :: rest => do
    let child ← access lib doc item (previous ++ live)
    body child (child.address :: live)
    eachItem body live [child.address] rest

/-- `_walk_action`, from the key to the counter: whether the action is entered -/
def enterAction (action : Wrapper) : Walk Bool := fun s =>
  if objectKey action ∈ s.visitedActions then (.ok false,s)
  else if limits.maxActionNodes ≤ s.actionNodesVisited then
    (.ok false,{ s with partialReasons := s.partialReasons.insert (lit "action_node_limit") })
  else (.ok true,{ s with
    visitedActions := objectKey action :: s.visitedActions
    actionNodesVisited := s.actionNodesVisited + 1 })

/-- `_walk_action`; `frames` are those left to the interpreter, and `live` are the addresses of the wrappers of the callers
    and of the action itself. -/
def walkAction : Nat → Wrapper → List Nat → Text → Nat → Walk Unit
  | 0,_,_,_,_ => Command.raise .recursion
  | frames+1,action,live,source,depth =>
    if limits.maxActionDepth < depth then markPartial (lit "action_depth_limit")
    else match action.value with
      | .array items => eachItem lib doc (fun child alive => walkAction frames child alive source depth) live [] items
      | value =>
        if !isAction doc value then pure ()
        else do
          let entered ← enterAction limits action
          if entered then do
            recordAction lib doc limits value source
            match get doc value (lit "/Next") with
            | none => pure ()
            | some item => do
              let next ← access lib doc item live
              walkAction frames next (next.address :: live) source (depth + 1)
          else pure ()

end DocGuard.Pdf
