import DocGuard.ArchiveSteps
import DocGuard.OoxmlRuns

/-!
What a complete analysis of an OOXML package says about the package as a whole: the
external relationships of its relationship parts, and its VBA projects.
-/
namespace DocGuard.Ooxml
open DocGuard.Commands DocGuard.Domain DocGuard.Findings DocGuard.NameSecurity DocGuard.Ordered DocGuard.Vba
open DocGuard.Archive (Container Exn Member ZipInfo crc32 zipBytes)
open DocGuard.Json (Value utf8)

variable {lib : Library} {limits : OfficeAnalysisLimits} {members : Members} {s : State}

/-! ### The analysis of a file -/

/-- A file that is inspected, with its members and the state in which the inspection ends. -/
structure Inspected (lib : Library) (limits : OfficeAnalysisLimits) (data : Bytes) (members : Members) (s : State) : Prop where
  opened : ∃ container, lib.zipFile data = .ok container ∧ container.infolist = .ok members
  contentTypes : _CONTENT_TYPES_PART ∈ members.names
  ended : inspect lib limits members = .ok s

theorem analyzeOoxml_inspected {data : Bytes} {analysis : OfficeAnalysis}
    (run : analyzeOoxml lib limits data = .ok (some analysis)) :
    ∃ members s, Inspected lib limits data members s ∧ analysis = result limits s := by
  unfold analyzeOoxml at run
  split at run
  · split at run
    · cases run
    · cases run
  · rename_i container opened
    split at run
    · cases run
    · rename_i infos listed
      split at run
      · cases run
      · rename_i present
        cases ended : inspect lib limits infos with
        | error e =>
          rw [ended] at run
          cases run
        | ok s =>
          rw [ended] at run
          cases run
          exact ⟨infos,s,⟨⟨container,opened,listed⟩,not_not.mp present,ended⟩,rfl⟩

theorem Inspected.analyzed {data : Bytes} (inspected : Inspected lib limits data members s) :
    analyzeOoxml lib limits data = .ok (some (result limits s)) := by
  obtain ⟨⟨container,opened,listed⟩,present,ended⟩ := inspected
  unfold analyzeOoxml
  rw [opened]
  dsimp only
  rw [listed]
  dsimp only
  have named : _CONTENT_TYPES_PART ∈ members.map ZipInfo.filename := present
  rw [if_neg (not_not.mpr named), ended]
  rfl

/-- A code is among the findings of an analysis. -/
def Reported (analysis : OfficeAnalysis) (code : OfficeCode) : Prop :=
  code.value ∈ analysis.findings.map FindingFields.code

theorem OfficeCode.value_injective {first second : OfficeCode} (same : first.value = second.value) : first = second := by
  revert same
  cases first <;> cases second <;> decide

theorem mem_officeCodes (code : OfficeCode) : code ∈ officeCodes := by
  cases code <;> decide

theorem reported_result (s : State) (code : OfficeCode) : Reported (result limits s) code ↔ reports s code = true := by
  simp only [Reported, result, findings, List.map_map, List.mem_map, List.mem_filter, Function.comp_apply,
    findingPayload_code]
  constructor
  · rintro ⟨other,⟨_,holds⟩,same⟩
    exact OfficeCode.value_injective same ▸ holds
  · intro holds
    exact ⟨code,⟨mem_officeCodes code,holds⟩,rfl⟩

/-! ### External relationships -/

mutual

/-- An element with all that are below it. -/
def Element.elements : Element → List Element
  | .mk tag attrib children => .mk tag attrib children :: elementsOf children

def elementsOf : List Element → List Element
  | [] => []
  | element :: rest => element.elements ++ elementsOf rest

end

/-- The relationship parts of a package. -/
def relationshipParts (members : Members) : List Text :=
  sortedSet (members.names.filter fun name => Text.endsWith name (lit ".rels"))

/-- The external relationships of a part, at any depth. -/
def allExternals (lib : Library) (members : Members) (name : Text) : List Element :=
  externalsOf lib (((partRoot lib members name).map Element.elements).getD [])

/-- The external relationships of a package. -/
def packageExternals (lib : Library) (members : Members) : List Element :=
  (relationshipParts members).flatMap (allExternals lib members)

/-- The external relationships of a part that are not directly below its root. -/
def nestedExternals (lib : Library) (members : Members) (name : Text) : List Element :=
  (((partRoot lib members name).map Element.children).getD []).flatMap fun child => externalsOf lib (elementsOf child.children)

/-- The count of external relationships and the findings about them are those of the package. -/
structure ExternalsReported (lib : Library) (members : Members) (analysis : OfficeAnalysis) : Prop where
  count : analysis.metadata.lookup (lit "external_relationship_count") =
    some (.int (packageExternals lib members).length)
  relationship : Reported analysis .EXTERNAL_RELATIONSHIP ↔ 0 < (packageExternals lib members).length
  template : Reported analysis .EXTERNAL_TEMPLATE ↔ ∃ element ∈ packageExternals lib members, isTemplate lib element

/-- The elements of some trees are their roots and what is below these. -/
theorem elementsOf_perm (elements : List Element) :
    (elementsOf elements).Perm (elements ++ elements.flatMap fun element => elementsOf element.children) := by
  induction elements with
  | nil => exact .refl _
  | cons element rest ih =>
    obtain ⟨tag,attrib,children⟩ := element
    have first : elementsOf (Element.mk tag attrib children :: rest) =
        Element.mk tag attrib children :: (elementsOf children ++ elementsOf rest) := by
      rw [elementsOf, Element.elements, List.cons_append]
    rw [first, List.flatMap_cons, List.cons_append]
    refine List.Perm.cons _ ((List.Perm.append_left _ ih).trans ?_)
    rw [← List.append_assoc, ← List.append_assoc]
    exact List.Perm.append_right _ List.perm_append_comm

theorem relationships_tag : qualified _RELATIONSHIPS_NAMESPACE (lit "Relationships") ≠
    qualified _RELATIONSHIPS_NAMESPACE (lit "Relationship") := by
  decide

/-- The external relationships of a part are those directly below its root and the nested ones. -/
theorem allExternals_perm {name : Text} {root : Element} (part : RelationshipsPart lib members name root) :
    (allExternals lib members name).Perm (partExternals lib members name ++ nestedExternals lib members name) := by
  obtain ⟨parsed,tag⟩ := part
  rw [allExternals, partExternals, nestedExternals, parsed]
  obtain ⟨tag',attrib,children⟩ := root
  have other : isRelationship (.mk tag' attrib children) = false := by
    have tag : tag' = qualified _RELATIONSHIPS_NAMESPACE (lit "Relationships") := tag
    exact decide_eq_false (tag ▸ relationships_tag)
  have below : externalsOf lib (Element.mk tag' attrib children).elements = externalsOf lib (elementsOf children) := by
    rw [Element.elements, externalsOf, List.filter_cons, other]
    rfl
  show (externalsOf lib (Element.mk tag' attrib children).elements).Perm _
  rw [below]
  have split_ : externalsOf lib (children ++ children.flatMap fun child => elementsOf child.children) =
      externalsOf lib children ++ children.flatMap fun child => externalsOf lib (elementsOf child.children) := by
    rw [externalsOf, List.filter_append, List.filter_flatMap]
    rfl
  exact split_ ▸ (elementsOf_perm children).filter _

theorem partRoot_member {name : Text} {root : Element} (parsed : partRoot lib members name = some root) :
    name ∈ members.names := by
  obtain ⟨info,found,_⟩ := Option.bind_eq_some_iff.mp parsed
  have named := List.find?_some found
  have member := List.mem_of_find?_eq_some found
  exact beq_iff_eq.mp named ▸ List.mem_map_of_mem member

theorem relationshipParts_perm (present : _ROOT_RELATIONSHIPS_PART ∈ members.names) :
    (relationshipParts members).Perm (_ROOT_RELATIONSHIPS_PART :: relationshipNames members) := by
  have apart : _ROOT_RELATIONSHIPS_PART ∉ relationshipNames members := by
    simp [relationshipNames, mem_sortedSet]
  have nodup : (_ROOT_RELATIONSHIPS_PART :: relationshipNames members).Nodup :=
    List.nodup_cons.mpr ⟨apart,sortedSet_nodup _⟩
  have suffix : Text.endsWith _ROOT_RELATIONSHIPS_PART (lit ".rels") = true := by decide
  have distinct : (relationshipParts members).Nodup := sortedSet_nodup _
  refine (List.perm_ext_iff_of_nodup distinct nodup).mpr fun name => ?_
  rw [relationshipParts, mem_sortedSet, List.mem_cons, relationshipNames, mem_sortedSet]
  by_cases root : name = _ROOT_RELATIONSHIPS_PART
  · subst root
    simp [present, suffix]
  · simp [root]

/-- The external relationships that no inspection looks at: all of the package, and the nested ones of the parts. -/
def unseenExternals (lib : Library) (members : Members) : List Element :=
  allExternals lib members _ROOT_RELATIONSHIPS_PART ++ (relationshipNames members).flatMap (nestedExternals lib members)

/-- The external relationships of a package are those that an inspection looks at and the others. -/
theorem packageExternals_perm {root : Element} (complete : Complete lib members root s) :
    (packageExternals lib members).Perm (inspectedExternals lib members ++ unseenExternals lib members) := by
  obtain ⟨package,found⟩ := complete.package
  have parts : ((relationshipNames members).flatMap (allExternals lib members)).Perm
      (inspectedExternals lib members ++ (relationshipNames members).flatMap (nestedExternals lib members)) := by
    refine (List.Perm.flatMap_left _ fun name member => ?_).trans (List.flatMap_append_perm _ _ _).symm
    obtain ⟨root,part⟩ := complete.parts name member
    exact allExternals_perm part
  have split_ := (relationshipParts_perm (partRoot_member found.1)).flatMap_right (allExternals lib members)
  rw [List.flatMap_cons] at split_
  refine split_.trans ((List.Perm.append_left _ parts).trans ?_)
  rw [unseenExternals, ← List.append_assoc, ← List.append_assoc]
  exact List.Perm.append_right _ List.perm_append_comm

theorem externalCount_result (s : State) :
    (result limits s).metadata.lookup (lit "external_relationship_count") = some (.int s.externalRelationshipCount) := by
  rfl

/-- What a complete analysis reports are the relationships that it looks at. -/
theorem externalsReported_iff {root : Element} (complete : Complete lib members root s) :
    ExternalsReported lib members (result limits s) ↔ unseenExternals lib members = [] := by
  have perm := packageExternals_perm complete
  have total := perm.length_eq
  rw [List.length_append] at total
  constructor
  · intro reported
    have count := reported.count
    rw [externalCount_result, complete.externals] at count
    injection count with count
    injection count with count
    exact List.eq_nil_of_length_eq_zero (by omega)
  · intro none
    rw [none, List.append_nil] at perm
    rw [none, List.length_nil, Nat.add_zero] at total
    refine ⟨?_,?_,?_⟩
    · rw [externalCount_result, complete.externals, total]
    · rw [reported_result, total, ← complete.externals]
      simp [reports, Nat.pos_iff_ne_zero]
    · rw [reported_result]
      have some : reports s .EXTERNAL_TEMPLATE = true ↔ s.externalTemplateCount ≠ 0 := by simp [reports]
      rw [some, complete.templates, ← Nat.pos_iff_ne_zero, List.length_filter_pos_iff]
      exact exists_congr fun element => and_congr_left fun _ => perm.mem_iff.symm

/-! ### Packages of stored parts -/

/-- A name without the namespace before it. -/
def localName (tag : Text) : Text := (tag.dropWhile (· ≠ '}')).drop 1

def namespaceOf (tag : Text) : Text := (tag.drop 1).takeWhile (· ≠ '}')

mutual

/-- The text of an element whose attributes need no escapes. -/
def Element.render : Element → Text
  | .mk tag attrib children =>
    '<' :: localName tag ++ lit " xmlns=\"" ++ namespaceOf tag ++ ['"'] ++
      attrib.flatMap (fun entry => ' ' :: entry.1 ++ lit "=\"" ++ entry.2 ++ ['"']) ++ ['>'] ++ renderAll children ++
        lit "</" ++ localName tag ++ ['>']

def renderAll : List Element → Text
  | [] => []
  | element :: rest => element.render ++ renderAll rest

end

/-- The tables, for ASCII. -/
def asciiTables : UnicodeTables where
  normalizeNfc := id
  casefold := List.map Char.toLower
  isOther c := decide (c.val < 32 ∨ c.val = 127)

def storedInfo (part : Text × Bytes) : ZipInfo := { filename := part.1, member := { content := part.2 } }

def storedArchive (parts : List (Text × Bytes)) : Bytes :=
  zipBytes (parts.map fun part => ⟨part.1,part.2,crc32 part.2⟩)

/-- The libraries at an archive of stored parts, some of which are the texts of elements. -/
def storedLibrary (parts : List (Text × Bytes)) (roots : List Element) : Library where
  tables := asciiTables
  isSpace := Char.isWhitespace
  zipFile data := if data = storedArchive parts then .ok ⟨.ok (parts.map storedInfo)⟩ else .error .BadZipFile
  fromString data :=
    match roots.find? fun root => utf8 root.render = data with
    | some root => .ok root
    | none => .error (.named (lit "ParseError"))
  urlsplit text :=
    if text = lit "https://example.com/" then some (lit "https",some (lit "example.com")) else some ([],none)
  vbaParser _ :=
    { opens := .error (.expected (lit "FileOpenError"))
      detectVbaMacros := .ok false
      vbaProjects := none
      extractMacros := []
      extractionRaises := none }

theorem storedLibrary_zipFile (parts : List (Text × Bytes)) (roots : List Element) :
    (storedLibrary parts roots).zipFile (storedArchive parts) = .ok ⟨.ok (parts.map storedInfo)⟩ :=
  if_pos rfl

def overrideOf (name type : Text) : Element :=
  .mk (qualified _CONTENT_TYPES_NAMESPACE (lit "Override")) [(lit "PartName",name),(lit "ContentType",type)] []

def documentType : Text := lit "application/vnd.openxmlformats-officedocument.wordprocessingml.document.main+xml"

def typesOf (children : List Element) : Element := .mk (qualified _CONTENT_TYPES_NAMESPACE (lit "Types")) [] children

def relationshipOf (type target mode : Text) : Element :=
  .mk (qualified _RELATIONSHIPS_NAMESPACE (lit "Relationship"))
    [(lit "Type",type),(lit "Target",target),(lit "TargetMode",mode)] []

def relationshipsOf (children : List Element) : Element :=
  .mk (qualified _RELATIONSHIPS_NAMESPACE (lit "Relationships")) [] children

def documentRelationship : Element :=
  relationshipOf (lit "http://schemas.openxmlformats.org/officeDocument/2006/relationships/officeDocument")
    (lit "word/document.xml") (lit "Internal")

def templateRelationship : Element :=
  relationshipOf (lit "http://schemas.openxmlformats.org/officeDocument/2006/relationships/attachedTemplate")
    (lit "https://example.com/") (lit "External")

/-- A document with these children in the roots of its content types and relationship parts, and more parts. -/
structure Document where
  types : List Element := [overrideOf (lit "/word/document.xml") documentType]
  package : List Element := [documentRelationship]
  relationships : List Element := []
  more : List (Text × Bytes) := []

namespace Document

def parts (document : Document) : List (Text × Bytes) :=
  [(_CONTENT_TYPES_PART,utf8 (typesOf document.types).render),
   (_ROOT_RELATIONSHIPS_PART,utf8 (relationshipsOf document.package).render),
   (lit "word/document.xml",[]),
   (lit "word/_rels/document.xml.rels",utf8 (relationshipsOf document.relationships).render)] ++ document.more

def infos (document : Document) : Members := document.parts.map storedInfo

def library (document : Document) : Library :=
  storedLibrary document.parts
    [typesOf document.types,relationshipsOf document.package,relationshipsOf document.relationships]

def data (document : Document) : Bytes := storedArchive document.parts

theorem opened (document : Document) : document.library.zipFile document.data = .ok ⟨.ok document.infos⟩ :=
  storedLibrary_zipFile _ _

theorem inspected (document : Document) {status : OfficeParserStatus}
    (ended : (inspect document.library limits document.infos).map parserStatus = .ok status) :
    ∃ s, Inspected document.library limits document.data document.infos s ∧ parserStatus s = status := by
  cases run : inspect document.library limits document.infos with
  | error e =>
    rw [run] at ended
    cases ended
  | ok s =>
    rw [run] at ended
    exact ⟨s,⟨⟨_,document.opened,rfl⟩,List.mem_cons_self,run⟩,Except.ok.inj ended⟩

/-- The root of the content types parses as it was written. -/
theorem contentTypes (document : Document) :
    partRoot document.library document.infos _CONTENT_TYPES_PART = some (typesOf document.types) := by
  have first : document.infos.get _CONTENT_TYPES_PART =
      some (storedInfo (_CONTENT_TYPES_PART,utf8 (typesOf document.types).render)) :=
    List.find?_cons_of_pos (beq_self_eq_true _)
  have parsed : document.library.fromString (utf8 (typesOf document.types).render) = .ok (typesOf document.types) := by
    have found : [typesOf document.types,relationshipsOf document.package,relationshipsOf document.relationships].find?
        (fun root => decide (utf8 root.render = utf8 (typesOf document.types).render)) = some (typesOf document.types) :=
      List.find?_cons_of_pos (decide_eq_true rfl)
    unfold Document.library storedLibrary
    dsimp only
    rw [found]
  rw [partRoot, first, Option.bind_some]
  exact congrArg Except.toOption parsed

end Document

/-! ### The external relationships of a package -/

/-- A complete analysis reports every external relationship exactly if none is among those of the package itself and
    none is nested below another element. -/
theorem external_relationships_iff {data : Bytes} {container : Container} {analysis : OfficeAnalysis}
    (opened : lib.zipFile data = .ok container) (listed : container.infolist = .ok members)
    (run : analyzeOoxml lib limits data = .ok (some analysis)) (complete : analysis.parserStatus = .COMPLETE) :
    ExternalsReported lib members analysis ↔ unseenExternals lib members = [] := by
  obtain ⟨members',s,inspected,rfl⟩ := analyzeOoxml_inspected run
  obtain ⟨container',opened',listed'⟩ := inspected.opened
  cases opened.symm.trans opened'
  cases listed.symm.trans listed'
  obtain ⟨root,found⟩ := inspect_complete inspected.ended (parserStatus_complete.mp complete).2
  exact externalsReported_iff found

def templateDocument : Document := { relationships := [templateRelationship] }

theorem templateDocument_complete :
    ∃ s, Inspected templateDocument.library {} templateDocument.data templateDocument.infos s ∧ parserStatus s = .COMPLETE :=
  templateDocument.inspected (by decide +kernel)

theorem external_relationships_iff_template :
    ∃ container analysis, templateDocument.library.zipFile templateDocument.data = .ok container ∧
      container.infolist = .ok templateDocument.infos ∧
        analyzeOoxml templateDocument.library {} templateDocument.data = .ok (some analysis) ∧
          analysis.parserStatus = .COMPLETE ∧
            (ExternalsReported templateDocument.library templateDocument.infos analysis ↔
              unseenExternals templateDocument.library templateDocument.infos = []) := by
  obtain ⟨s,inspected,complete⟩ := templateDocument_complete
  obtain ⟨container,opened,listed⟩ := inspected.opened
  have run := inspected.analyzed
  exact ⟨container,_,opened,listed,run,complete,external_relationships_iff opened listed run complete⟩

/-- An external relationship of the package itself. -/
def packageDocument : Document := { package := [documentRelationship,templateRelationship] }

theorem packageDocument_complete :
    ∃ s, Inspected packageDocument.library {} packageDocument.data packageDocument.infos s ∧ parserStatus s = .COMPLETE :=
  packageDocument.inspected (by decide +kernel)

theorem package_relationship_unreported :
    ∃ container analysis, packageDocument.library.zipFile packageDocument.data = .ok container ∧
      container.infolist = .ok packageDocument.infos ∧
        analyzeOoxml packageDocument.library {} packageDocument.data = .ok (some analysis) ∧
          analysis.parserStatus = .COMPLETE ∧
            ¬ ExternalsReported packageDocument.library packageDocument.infos analysis := by
  obtain ⟨s,inspected,complete⟩ := packageDocument_complete
  obtain ⟨container,opened,listed⟩ := inspected.opened
  obtain ⟨root,found⟩ := inspect_complete inspected.ended (parserStatus_complete.mp complete).2
  refine ⟨container,_,opened,listed,inspected.analyzed,complete,fun reported => ?_⟩
  have unseen : (unseenExternals packageDocument.library packageDocument.infos).isEmpty = false := by decide +kernel
  rw [(externalsReported_iff found).mp reported] at unseen
  cases unseen

/-! ### The VBA projects of a package -/

/-- The extension of a part: what follows the last dot of the last segment of its name. -/
def extensionOf (name : Text) : Option Text :=
  let segment := lastSegment name
  if '.' ∈ segment then some (segment.reverse.takeWhile (· ≠ '.')).reverse else none

def isDefault (element : Element) : Bool := decide (element.tag = qualified _CONTENT_TYPES_NAMESPACE (lit "Default"))

/-- Equal but for the case of ASCII letters, as the package format compares the names of parts and extensions. -/
def SameName (first second : Text) : Prop := first.map Char.toLower = second.map Char.toLower

instance (first second : Text) : Decidable (SameName first second) := by
  unfold SameName; infer_instance

/-- The content types give a part this type by an override. -/
def OverrideType (root : Element) (name type : Text) : Prop :=
  ∃ element ∈ root.children, isOverride element ∧ SameName (overrideName element) name ∧
    element.attr (lit "ContentType") = type

/-- The content types give a part this type by the default for its extension, and no type by an override. -/
def DefaultType (root : Element) (name type : Text) : Prop :=
  (∀ other, ¬ OverrideType root name other) ∧
    ∃ element ∈ root.children, isDefault element ∧
      (∃ extension, extensionOf name = some extension ∧ SameName extension (element.attr (lit "Extension"))) ∧
        element.attr (lit "ContentType") = type

/-- The type of a part in a package with these content types. -/
def EffectiveType (root : Element) (name type : Text) : Prop := OverrideType root name type ∨ DefaultType root name type

/-- Every part whose type names a VBA project is reported, and its bytes are passed to `analyze_vba_blob`. -/
def VbaReported (lib : Library) (limits : OfficeAnalysisLimits) (members : Members) (root : Element) (s : State) : Prop :=
  ∀ name ∈ members.names, ∀ type, EffectiveType root name type → isVbaType lib type →
    Reported (result limits s) .VBA_MACRO ∧ Reported (result limits s) .MACRO_ENABLED ∧
      (name,members.content name) ∈ s.passed

/-- An override that spells a name letter by letter gives it this type. -/
def SpelledType (root : Element) (name type : Text) : Prop :=
  ∃ element ∈ root.children, isOverride element ∧ overrideName element = name ∧ element.attr (lit "ContentType") = type

/-- The place of the VBA project of an application whose main part is declared. -/
def AtVbaPath (lib : Library) (members : Members) (root : Element) (name : Text) : Prop :=
  ∃ application, isCandidate lib (overridesAfter root.children []) members application ∧
    vbaPath application = some name

theorem mem_vbaMembers {overrides : List (Text × Text)} {application : OfficeApplication} {name : Text} :
    name ∈ vbaMembers lib members overrides application ↔ name ∈ members.names ∧
      ((∃ type, (name,type) ∈ overrides ∧ isVbaType lib type) ∨ vbaPath application = some name) := by
  have declared : name ∈ sortedSet ((overrides.filter fun entry => isVbaType lib entry.2 &&
      members.names.contains entry.1).map Prod.fst) ↔
        name ∈ members.names ∧ ∃ type, (name,type) ∈ overrides ∧ isVbaType lib type := by
    simp only [mem_sortedSet, List.mem_map, List.mem_filter, Prod.exists, Bool.and_eq_true, List.contains_iff_mem]
    constructor
    · rintro ⟨name',type,⟨inside,vba,member⟩,rfl⟩
      exact ⟨member,type,inside,vba⟩
    · rintro ⟨member,type,inside,vba⟩
      exact ⟨name,type,⟨inside,vba,member⟩,rfl⟩
  unfold vbaMembers
  dsimp only
  cases place : vbaPath application with
  | none =>
    dsimp only
    rw [declared]
    simp
  | some path =>
    dsimp only
    split
    · rename_i added
      rw [List.mem_append, declared, List.mem_singleton]
      constructor
      · rintro (found | rfl)
        · exact ⟨found.1,.inl found.2⟩
        · exact ⟨added.1,.inr rfl⟩
      · rintro ⟨member,found | same⟩
        · exact .inl ⟨member,found⟩
        · exact .inr (Option.some.inj same).symm
    · rename_i there
      rw [declared]
      constructor
      · exact fun found => ⟨found.1,.inl found.2⟩
      · rintro ⟨member,found | same⟩
        · exact ⟨member,found⟩
        · cases same
          exact declared.mp (not_not.mp fun absent => there ⟨member,absent⟩)

theorem SpelledType.declared {root : Element} (unambiguous : Unambiguous root.children [] (overridesAfter root.children []))
    {name type : Text} (override : SpelledType root name type) : (name,type) ∈ overridesAfter root.children [] := by
  obtain ⟨element,inside,marked,rfl,rfl⟩ := override
  obtain ⟨_,_,split_,_⟩ := List.lookup_eq_some_iff.mp (unambiguous.each element inside marked)
  rw [split_]
  exact List.mem_append_right _ List.mem_cons_self

theorem spelledType_of_declared {root : Element} {name type : Text}
    (declared : (name,type) ∈ overridesAfter root.children []) : SpelledType root name type := by
  rcases mem_overridesAfter declared with none | ⟨element,inside,marked,same⟩
  · cases none
  · cases same
    exact ⟨element,inside,marked,rfl,rfl⟩

/-- The members that are taken for VBA projects are those that such an override spells and the one at the fixed path. -/
theorem Complete.mem_vbaMembers {root : Element} (complete : Complete lib members root s) (name : Text) :
    name ∈ vbaMembers lib members (overridesAfter root.children []) s.application ↔ name ∈ members.names ∧
      ((∃ type, SpelledType root name type ∧ isVbaType lib type) ∨ AtVbaPath lib members root name) := by
  rw [Ooxml.mem_vbaMembers]
  have declared (type : Text) : (name,type) ∈ overridesAfter root.children [] ↔ SpelledType root name type :=
    ⟨spelledType_of_declared,fun override => override.declared complete.unambiguous⟩
  have placed : vbaPath s.application = some name ↔ AtVbaPath lib members root name := by
    constructor
    · intro path
      have only : s.application ∈ [OfficeApplication.WORD,.EXCEL,.POWERPOINT].filter
          (isCandidate lib (overridesAfter root.children []) members) := by
        rw [complete.application]
        exact List.mem_cons_self
      exact ⟨s.application,(List.mem_filter.mp only).2,path⟩
    · rintro ⟨application,candidate,path⟩
      have known : application ∈ [OfficeApplication.WORD,.EXCEL,.POWERPOINT] := by
        cases application with
        | UNKNOWN => cases path
        | WORD | EXCEL | POWERPOINT => simp
      have only := List.mem_filter.mpr ⟨known,candidate⟩
      rw [complete.application, List.mem_singleton] at only
      exact only ▸ path
  simp only [declared, placed]

/-- Every part whose type names a VBA project has such a type by an override that spells its name, or is at the fixed
    path. -/
def VbaFound (lib : Library) (members : Members) (root : Element) : Prop :=
  ∀ name ∈ members.names, ∀ type, EffectiveType root name type → isVbaType lib type →
    (∃ spelled, SpelledType root name spelled ∧ isVbaType lib spelled) ∨ AtVbaPath lib members root name

theorem vbaReported_iff {root : Element} (complete : Complete lib members root s) :
    VbaReported lib limits members root s ↔ VbaFound lib members root := by
  constructor
  · intro reported name member type effective vba
    have passed := (reported name member type effective vba).2.2
    rw [complete.passed] at passed
    obtain ⟨_,taken,same⟩ := List.mem_map.mp passed
    cases same
    exact ((complete.mem_vbaMembers name).mp taken).2
  · intro found name member type effective vba
    have taken : name ∈ vbaMembers lib members (overridesAfter root.children []) s.application :=
      (complete.mem_vbaMembers name).mpr ⟨member,found name member type effective vba⟩
    refine ⟨?_,?_,?_⟩
    · rw [reported_result]
      have some : s.vbaProjectCount ≠ 0 := by
        rw [complete.projects]
        exact (List.length_pos_of_mem taken).ne'
      simp [reports, some]
    · rw [reported_result]
      exact complete.macroEnabled (List.ne_nil_of_mem taken)
    · rw [complete.passed]
      exact List.mem_map_of_mem taken

/-- A complete analysis reports every VBA part exactly if each part typed as one has such a type by an override that
    spells its name, or lies at the fixed path of the application. -/
theorem vba_parts_iff {data : Bytes} {analysis : OfficeAnalysis} (run : analyzeOoxml lib limits data = .ok (some analysis))
    (complete : analysis.parserStatus = .COMPLETE) :
    ∃ members root s, Inspected lib limits data members s ∧ analysis = result limits s ∧
      partRoot lib members _CONTENT_TYPES_PART = some root ∧
        (VbaReported lib limits members root s ↔ VbaFound lib members root) := by
  obtain ⟨members,s,inspected,rfl⟩ := analyzeOoxml_inspected run
  obtain ⟨root,found⟩ := inspect_complete inspected.ended (parserStatus_complete.mp complete).2
  exact ⟨members,root,s,inspected,rfl,found.contentTypes,vbaReported_iff found⟩

def macroType : Text := lit "application/vnd.ms-office.vbaProject"

/-- A document with a VBA project at the fixed path, which an override declares. -/
def projectDocument : Document where
  types := [overrideOf (lit "/word/document.xml") documentType,overrideOf (lit "/word/vbaProject.bin") macroType]
  more := [(lit "word/vbaProject.bin",[0xd0,0xcf,0x11,0xe0])]

/-- The libraries at that document, whose project has a module of each of these names. -/
def projectLibrary (names : List Text) : Library :=
  { projectDocument.library with
    vbaParser := fun _ =>
      { opens := .ok ()
        detectVbaMacros := .ok true
        vbaProjects := some 1
        extractMacros := names.map fun name => { name := name, source := .ok (lit "Sub Main()"), scan := fun _ => .ok [] }
        extractionRaises := none } }

theorem projectLibrary_zipFile (names : List Text) :
    (projectLibrary names).zipFile projectDocument.data = .ok ⟨.ok projectDocument.infos⟩ := by
  have opened := projectDocument.opened
  generalize projectDocument.data = data at opened ⊢
  exact opened

theorem projectDocument_complete : ∃ s, Inspected (projectLibrary [lit "Main"]) {} projectDocument.data projectDocument.infos s ∧
    parserStatus s = .COMPLETE := by
  have ran : (inspect (projectLibrary [lit "Main"]) {} projectDocument.infos).map parserStatus = .ok .COMPLETE := by
    decide +kernel
  cases ended : inspect (projectLibrary [lit "Main"]) {} projectDocument.infos with
  | error e =>
    rw [ended] at ran
    cases ran
  | ok s =>
    rw [ended] at ran
    exact ⟨s,⟨⟨_,projectLibrary_zipFile _,rfl⟩,List.mem_cons_self,ended⟩,Except.ok.inj ran⟩

theorem vba_parts_iff_project :
    ∃ analysis, analyzeOoxml (projectLibrary [lit "Main"]) {} projectDocument.data = .ok (some analysis) ∧
      analysis.parserStatus = .COMPLETE ∧
        ∃ members root s, Inspected (projectLibrary [lit "Main"]) {} projectDocument.data members s ∧ analysis = result {} s ∧
          partRoot (projectLibrary [lit "Main"]) members _CONTENT_TYPES_PART = some root ∧
            (VbaReported (projectLibrary [lit "Main"]) {} members root s ↔
              VbaFound (projectLibrary [lit "Main"]) members root) := by
  obtain ⟨s,inspected,complete⟩ := projectDocument_complete
  have run := inspected.analyzed
  exact ⟨_,run,complete,vba_parts_iff run complete⟩

/-- A document with a VBA project away from the fixed path, typed by the default for its extension. -/
def macroDocument : Document where
  types := [overrideOf (lit "/word/document.xml") documentType,
    .mk (qualified _CONTENT_TYPES_NAMESPACE (lit "Default"))
      [(lit "Extension",lit "bin"),(lit "ContentType",macroType)] []]
  more := [(lit "word/macros.bin",[0xd0,0xcf,0x11,0xe0])]

theorem macroDocument_complete :
    ∃ s, Inspected macroDocument.library {} macroDocument.data macroDocument.infos s ∧ parserStatus s = .COMPLETE :=
  macroDocument.inspected (by decide +kernel)

theorem macroDocument_overrides (type : Text) :
    ¬ OverrideType (typesOf macroDocument.types) (lit "word/macros.bin") type := by
  rintro ⟨element,inside,marked,named,_⟩
  rcases List.mem_cons.mp inside with rfl | second
  · revert named
    decide
  · cases List.mem_singleton.mp second
    revert marked
    decide

theorem macroDocument_default : DefaultType (typesOf macroDocument.types) (lit "word/macros.bin") macroType :=
  ⟨macroDocument_overrides,_,List.mem_cons_of_mem _ List.mem_cons_self,by decide,⟨lit "bin",by decide,by decide⟩,rfl⟩

theorem default_project_unreported :
    ∃ analysis root s, analyzeOoxml macroDocument.library {} macroDocument.data = .ok (some analysis) ∧
      analysis.parserStatus = .COMPLETE ∧
        Inspected macroDocument.library {} macroDocument.data macroDocument.infos s ∧ analysis = result {} s ∧
          partRoot macroDocument.library macroDocument.infos _CONTENT_TYPES_PART = some root ∧
            ¬ VbaReported macroDocument.library {} macroDocument.infos root s := by
  obtain ⟨s,inspected,complete⟩ := macroDocument_complete
  obtain ⟨root,found⟩ := inspect_complete inspected.ended (parserStatus_complete.mp complete).2
  refine ⟨_,root,s,inspected.analyzed,complete,inspected,rfl,found.contentTypes,fun reported => ?_⟩
  cases found.contentTypes.symm.trans macroDocument.contentTypes
  have member : lit "word/macros.bin" ∈ macroDocument.infos.names := by decide
  have vba : isVbaType macroDocument.library macroType = true := by decide
  rcases (vbaReported_iff found).mp reported _ member macroType (.inr macroDocument_default) vba with
    ⟨type,⟨element,inside,marked,spelled,typed⟩,_⟩ | ⟨application,_,path⟩
  · exact macroDocument_overrides type ⟨element,inside,marked,congrArg (List.map Char.toLower) spelled,typed⟩
  · cases application <;> revert path <;> decide

end DocGuard.Ooxml
