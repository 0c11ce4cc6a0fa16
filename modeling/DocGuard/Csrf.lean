import DocGuard.DisplayNames
import DocGuard.FallbackScan
import DocGuard.Origins

/-!
The checks of the origin and of the token that guard the mutations of an operator.
A request that is not let in gets a controlled answer, unless an origin or a token
that is compared has a character outside ASCII; the chunks in which a form arrives
do not matter.
-/
namespace DocGuard.Csrf
open DocGuard.Origins

abbrev Bytes := List UInt8

def MAX_FORM_BYTES : Nat := 4096
def MAX_CSRF_TOKEN_LENGTH : Nat := 128

/-- How a check of a request ends early. -/
inductive Failure where
  | httpException (status : Nat) (detail : Text)
  | raised (exception : Raised)
  deriving DecidableEq, Repr

/-- `AuthenticatedPrincipal`, as far as the checks read it: the token is a digest in hexadecimal digits. -/
structure Principal where
  csrfToken : Text
  digest : csrfToken.length = 64 ∧ ∀ c ∈ csrfToken, isHexDigit c = true

/-- The headers of a request that the checks read, and the chunks of its body. -/
structure Request where
  origin : Option Text
  csrfToken : Option Text
  contentType : Option Text
  contentLength : Option Text
  chunks : List Bytes

/-- What the codecs and `int` read: `decodeReplace` is `bytes.decode("utf-8", errors="replace")`, `decimal` the value of a
    digit outside ASCII. -/
structure Codecs where
  decodeReplace : Bytes → Text
  decimal : Char → Option Nat

variable (tables : Tables) (codecs : Codecs)

/-! ### Forms -/

/-- `body.decode("utf-8")` -/
def decode (body : Bytes) : Option Text := (ByteArray.utf8Decode? ⟨body.toArray⟩).map Array.toList

def digitOf (c : Char) : Option Nat := if c.isDigit then some (c.toNat - 48) else codecs.decimal c

/-- Digits of which single underscores separate some, and the number of them -/
def readDigits : Text → Nat → Nat → Option (Nat × Nat)
  | [],_,_ => none
  | [c],value,count => (digitOf codecs c).map fun digit => (10 * value + digit,count + 1)
  | c :: '_' :: rest,value,count => do
    let digit ← digitOf codecs c
    readDigits rest (10 * value + digit) (count + 1)
  | c :: rest,value,count => do
    let digit ← digitOf codecs c
    readDigits rest (10 * value + digit) (count + 1)

/-- The blanks that `int` passes over at the ends: those of `isspace()` without the four separators of ASCII -/
def isNumberSpace (c : Char) : Bool := DisplayNames.isSpace c && !(28 ≤ c.toNat && c.toNat ≤ 31)

/-- `int(text)`, of at most as many digits as `sys.int_info` lets a conversion have -/
def int (text : Text) : Option Int :=
  let (negative,digits) := match Trim.trim isNumberSpace text with
    | '-' :: digits => (true,digits)
    | '+' :: digits => (false,digits)
    | digits => (false,digits)
  match readDigits codecs digits 0 0 with
  | none => none
  | some (value,count) => if 4300 < count then none else some (if negative then -value else value)

/-- `unquote_to_bytes` -/
def unquoteToBytes : Bytes → Bytes
  | [] => []
  | [byte] => [byte]
  | [byte,second] => [byte,second]
  | byte :: first :: second :: rest =>
    match if byte = 37 then FallbackScan.escaped first second else none with
    | some decoded => decoded :: unquoteToBytes rest
    | none => byte :: unquoteToBytes (first :: second :: rest)

/-- `unquote` -/
def unquote (text : Text) : Text :=
  if text.contains '%' then
    (text.splitBy fun a b => decide (a.toNat < 128) == decide (b.toNat < 128)).flatMap fun run =>
      if isAscii run then codecs.decodeReplace (unquoteToBytes (run.map fun c => UInt8.ofNat c.toNat)) else run
  else text

/-- `unquote_plus` -/
def unquotePlus (text : Text) : Text := unquote codecs (text.map fun c => if c = '+' then ' ' else c)

/-- A field of a form: its name and its value, at the first sign of equality -/
def field (piece : Text) : Option (Text × Text) :=
  let (name,hasEq,value) := partition '=' piece
  if hasEq then some (unquotePlus codecs name,unquotePlus codecs value) else none

/-- `parse_qsl`, with blank values, strict parsing and at most ten fields -/
def parseQsl (text : Text) : Option (List (Text × Text)) :=
  if text.isEmpty then some []
  else if 10 < 1 + text.count '&' then none
  else (text.splitOn '&').mapM (field codecs)

/-- Appends a value to those of its name, in the order in which the names were first seen. -/
def collect (parsed : List (Text × List Text)) (pair : Text × Text) : List (Text × List Text) :=
  if parsed.any (·.1 == pair.1) then parsed.map fun entry => if entry.1 == pair.1 then (entry.1,entry.2 ++ [pair.2]) else entry
  else parsed ++ [(pair.1,[pair.2])]

/-- `parse_qs` -/
def parseQs (text : Text) : Option (List (Text × List Text)) := (parseQsl codecs text).map (·.foldl collect [])

/-- The chunks, joined as long as they fit -/
def collected : Bytes → List Bytes → Except Failure Bytes
  | body,[] => .ok body
  | body,chunk :: chunks =>
    if MAX_FORM_BYTES < body.length + chunk.length then .error (.httpException 413 (lit "form too large"))
    else collected (body ++ chunk) chunks

def FORM_MEDIA_TYPE : Text := lit "application/x-www-form-urlencoded"

/-- The media type that a content type names -/
def mediaType (request : Request) : Text :=
  fold tables (DisplayNames.strip (partition ';' (request.contentType.getD [])).1)

/-- The check of a declared length -/
def checkDeclaredLength (contentLength : Option Text) : Except Failure Unit :=
  match contentLength with
  | none => pure ()
  | some declaredLength =>
    match int codecs declaredLength with
    | none => throw (.httpException 400 (lit "invalid content length"))
    | some length => if (MAX_FORM_BYTES : Int) < length then throw (.httpException 413 (lit "form too large")) else pure ()

/-- The fields of a body, each of which has one value -/
def readFields (body : Bytes) : Except Failure (List (Text × Text)) :=
  match (decode body).bind (parseQs codecs) with
  | none => throw (.httpException 400 (lit "invalid form"))
  | some parsed =>
    if parsed.any (·.2.length ≠ 1) then throw (.httpException 400 (lit "invalid form"))
    else pure (parsed.map fun entry => (entry.1,entry.2.headD []))

/-- `parse_urlencoded_form` -/
def parseUrlencodedForm (request : Request) : Except Failure (List (Text × Text)) :=
  if mediaType tables request ≠ FORM_MEDIA_TYPE then throw (.httpException 415 (lit "invalid form"))
  else do
    checkDeclaredLength codecs request.contentLength
    let body ← collected [] request.chunks
    readFields codecs body

/-- A controlled rejection -/
def Rejected {α : Type} (result : Except Failure α) : Prop :=
  ∃ status detail, result = .error (.httpException status detail) ∧ 400 ≤ status ∧ status < 500

/-- The body is a form of these fields, whatever its chunks are. -/
structure IsForm (request : Request) (fields : List (Text × Text)) : Prop where
  mediaType : mediaType tables request = FORM_MEDIA_TYPE
  declared : ∀ text ∈ request.contentLength, ∃ length, int codecs text = some length ∧ length ≤ MAX_FORM_BYTES
  short : request.chunks.flatten.length ≤ MAX_FORM_BYTES
  read : (decode request.chunks.flatten).bind (parseQsl codecs) = some fields
  distinct : (fields.map (·.1)).Nodup

theorem collected_chunks (chunks : List Bytes) {body : Bytes} (short : body.length ≤ MAX_FORM_BYTES) :
    collected body chunks = if (body ++ chunks.flatten).length ≤ MAX_FORM_BYTES then .ok (body ++ chunks.flatten)
      else .error (.httpException 413 (lit "form too large")) := by
  induction chunks generalizing body with
  | nil => simp [collected, short]
  | cons chunk chunks ih =>
    rw [collected]
    by_cases long : MAX_FORM_BYTES < body.length + chunk.length
    · have more : ¬ (body ++ (chunk :: chunks).flatten).length ≤ MAX_FORM_BYTES := by
        simp only [List.length_append, List.flatten_cons]
        omega
      rw [if_pos long, if_neg more]
    · rw [if_neg long, ih (by rw [List.length_append]; omega), List.flatten_cons, List.append_assoc]

/-- A name with two values keeps them. -/
theorem collect_doubled (pairs : List (Text × Text)) {parsed : List (Text × List Text)}
    (doubled : ∃ entry ∈ parsed, 2 ≤ entry.2.length) : ∃ entry ∈ pairs.foldl collect parsed, 2 ≤ entry.2.length := by
  induction pairs generalizing parsed with
  | nil => exact doubled
  | cons pair pairs ih =>
    refine ih ?_
    obtain ⟨entry,member,two⟩ := doubled
    unfold collect
    split
    · by_cases same : entry.1 == pair.1
      · exact ⟨_,List.mem_map_of_mem member,by simp [same]; omega⟩
      · exact ⟨_,List.mem_map_of_mem member,by simpa [same] using two⟩
    · exact ⟨entry,List.mem_append_left _ member,two⟩

/-- Fields of distinct names are collected as they are; of two fields of one name, both values are. -/
theorem collect_fields (pairs : List (Text × Text)) {parsed : List (Text × List Text)}
    (distinct : (parsed.map (·.1)).Nodup) (single : ∀ entry ∈ parsed, entry.2.length = 1) :
    ((parsed.map (·.1) ++ pairs.map (·.1)).Nodup ∧
        pairs.foldl collect parsed = parsed ++ pairs.map fun pair => (pair.1,[pair.2])) ∨
      (¬ (parsed.map (·.1) ++ pairs.map (·.1)).Nodup ∧ ∃ entry ∈ pairs.foldl collect parsed, 2 ≤ entry.2.length) := by
  induction pairs generalizing parsed with
  | nil => exact .inl ⟨by simpa using distinct,by simp⟩
  | cons pair pairs ih =>
    by_cases again : pair.1 ∈ parsed.map (·.1)
    · refine .inr ⟨?_,collect_doubled pairs ?_⟩
      · intro nodup
        exact (List.nodup_append.mp nodup).2.2 pair.1 again pair.1 (by simp) rfl
      · obtain ⟨entry,member,same⟩ := List.mem_map.mp again
        have found : parsed.any (·.1 == pair.1) = true := List.any_eq_true.mpr ⟨entry,member,by simp [same]⟩
        refine ⟨(entry.1,entry.2 ++ [pair.2]),?_,by simp [single entry member]⟩
        rw [collect, if_pos found]
        exact List.mem_map.mpr ⟨entry,member,by simp [same]⟩
    · have fresh : parsed.any (·.1 == pair.1) = false := by
        rw [List.any_eq_false]
        intro entry member same
        exact again (List.mem_map.mpr ⟨entry,member,eq_of_beq same⟩)
      have appended : collect parsed pair = parsed ++ [(pair.1,[pair.2])] := by
        rw [collect, fresh]
        rfl
      have distinct' : ((parsed ++ [(pair.1,[pair.2])]).map (·.1)).Nodup := by
        rw [List.map_append]
        refine List.nodup_append.mpr ⟨distinct,List.nodup_singleton _,fun a member b other => ?_⟩
        rintro rfl
        rw [List.mem_singleton.mp other] at member
        exact again member
      have single' : ∀ entry ∈ parsed ++ [(pair.1,[pair.2])], entry.2.length = 1 := by
        intro entry member
        rcases List.mem_append.mp member with old | new
        · exact single entry old
        · rw [List.mem_singleton.mp new]
          rfl
      rw [List.foldl_cons, appended]
      rcases ih distinct' single' with ⟨nodup,same⟩ | ⟨repeated,doubled⟩
      · refine .inl ⟨?_,by rw [same]; simp⟩
        simpa using nodup
      · refine .inr ⟨?_,doubled⟩
        simpa using repeated

theorem checkDeclaredLength_spec (contentLength : Option Text) :
    ((∀ text ∈ contentLength, ∃ length, int codecs text = some length ∧ length ≤ MAX_FORM_BYTES) ∧
        checkDeclaredLength codecs contentLength = .ok ()) ∨
      (¬ (∀ text ∈ contentLength, ∃ length, int codecs text = some length ∧ length ≤ MAX_FORM_BYTES) ∧
        Rejected (checkDeclaredLength codecs contentLength)) := by
  cases contentLength with
  | none => exact .inl ⟨fun _ declared => (Option.not_mem_none _ declared).elim,rfl⟩
  | some text =>
    cases number : int codecs text with
    | none =>
      refine .inr ⟨fun all => ?_,400,lit "invalid content length",by simp only [checkDeclaredLength, number]; rfl,by decide,by decide⟩
      obtain ⟨length,some,_⟩ := all text rfl
      cases number.symm.trans some
    | some length =>
      by_cases long : (MAX_FORM_BYTES : Int) < length
      · refine .inr ⟨fun all => ?_,413,lit "form too large",by simp only [checkDeclaredLength, number, if_pos long]; rfl,by decide,
          by decide⟩
        obtain ⟨_,some,short⟩ := all text rfl
        cases number.symm.trans some
        omega
      · refine .inl ⟨fun _ declared => ?_,by simp only [checkDeclaredLength, number, if_neg long]; rfl⟩
        cases declared
        exact ⟨length,number,by omega⟩

theorem readFields_spec (body : Bytes) :
    (∃ fields, (decode body).bind (parseQsl codecs) = some fields ∧ (fields.map (·.1)).Nodup ∧
        readFields codecs body = .ok fields) ∨
      ((∀ fields, (decode body).bind (parseQsl codecs) = some fields → ¬ (fields.map (·.1)).Nodup) ∧
        Rejected (readFields codecs body)) := by
  have grouped : (decode body).bind (parseQs codecs) =
      ((decode body).bind (parseQsl codecs)).map (·.foldl collect []) := by
    cases decode body <;> rfl
  cases listed : (decode body).bind (parseQsl codecs) with
  | none =>
    have unreadable : readFields codecs body = .error (.httpException 400 (lit "invalid form")) := by
      simp only [readFields, grouped, listed, Option.map_none]
      rfl
    exact .inr ⟨fun _ some => absurd some (by simp),400,_,unreadable,by decide,by decide⟩
  | some fields =>
    have read : readFields codecs body = if (fields.foldl collect []).any (·.2.length ≠ 1) then
        .error (.httpException 400 (lit "invalid form"))
        else .ok ((fields.foldl collect []).map fun entry => (entry.1,entry.2.headD [])) := by
      simp only [readFields, grouped, listed, Option.map_some]
      rfl
    have empty : ∀ entry ∈ ([] : List (Text × List Text)), entry.2.length = 1 := by simp
    rcases @collect_fields fields [] List.nodup_nil empty with ⟨distinct,same⟩ | ⟨repeated,entry,member,two⟩
    · refine .inl ⟨fields,rfl,by simpa using distinct,?_⟩
      have single : (fields.foldl collect []).any (fun entry => decide (entry.2.length ≠ 1)) = false := by
        simp [same]
      rw [read, single, same]
      simp [Function.comp_def]
    · have malformed : readFields codecs body = .error (.httpException 400 (lit "invalid form")) := by
        rw [read, if_pos (List.any_eq_true.mpr ⟨entry,member,by simp; omega⟩)]
      have twice : ∀ others, some fields = some others → ¬ (others.map (·.1)).Nodup := by
        intro others same
        rw [← Option.some.inj same]
        simpa using repeated
      exact .inr ⟨twice,400,_,malformed,by decide,by decide⟩

/-- A form is read as its fields, and anything else is turned away. -/
theorem parseUrlencodedForm_spec (request : Request) :
    (∃ fields, IsForm tables codecs request fields ∧ parseUrlencodedForm tables codecs request = .ok fields) ∨
      ((∀ fields, ¬ IsForm tables codecs request fields) ∧ Rejected (parseUrlencodedForm tables codecs request)) := by
  by_cases media : mediaType tables request = FORM_MEDIA_TYPE
  · have parsed : parseUrlencodedForm tables codecs request =
        (checkDeclaredLength codecs request.contentLength).bind fun _ =>
          (collected [] request.chunks).bind fun body => readFields codecs body := by
      rw [parseUrlencodedForm, if_neg (by simpa using media)]
      rfl
    rcases checkDeclaredLength_spec codecs request.contentLength with ⟨declared,passed⟩ | ⟨undeclared,status,detail,same,range⟩
    · rw [passed, @collected_chunks request.chunks [] (Nat.zero_le _), List.nil_append] at parsed
      by_cases short : request.chunks.flatten.length ≤ MAX_FORM_BYTES
      · rw [if_pos short] at parsed
        rcases readFields_spec codecs request.chunks.flatten with ⟨fields,read,distinct,same⟩ | ⟨malformed,status,detail,same,range⟩
        · exact .inl ⟨fields,⟨media,declared,short,read,distinct⟩,parsed.trans same⟩
        · exact .inr ⟨fun fields form => malformed fields form.read form.distinct,status,detail,parsed.trans same,range⟩
      · rw [if_neg short] at parsed
        exact .inr ⟨fun fields form => short form.short,413,_,parsed,by decide,by decide⟩
    · rw [same] at parsed
      exact .inr ⟨fun fields form => undeclared form.declared,status,detail,parsed,range⟩
  · refine .inr ⟨fun fields form => media form.mediaType,415,lit "invalid form",?_,by decide,by decide⟩
    rw [parseUrlencodedForm, if_pos media]
    rfl

/-! ### The checks -/

/-- `origin.rstrip("/")` -/
def rstripSlash (origin : Text) : Text := origin.rdropWhile (· = '/')

def compared (a b : Text) : Except Failure Bool :=
  match compareDigest a b with
  | .ok same => .ok same
  | .error exception => .error (.raised exception)

/-- `_enforce_origin` -/
def enforceOrigin (request : Request) (settings : Settings) : Except Failure Unit :=
  match request.origin with
  | none => if settings.effectiveRequireOriginHeader then throw (.httpException 403 (lit "origin required")) else pure ()
  | some origin => do
    let same ← compared (rstripSlash origin) (rstripSlash settings.applicationOrigin)
    if !same then throw (.httpException 403 (lit "foreign origin rejected"))

/-- The token of the header, else of a form -/
def suppliedToken (request : Request) : Except Failure (Option Text) :=
  match request.csrfToken with
  | some token => .ok (some token)
  | none =>
    if Text.startsWith (fold tables (request.contentType.getD [])) FORM_MEDIA_TYPE then do
      let fields ← parseUrlencodedForm tables codecs request
      return fields.lookup (lit "csrf_token")
    else .ok none

/-- `enforce_csrf` -/
def enforceCsrf (settings : Settings) (principal : Option Principal) (request : Request) : Except Failure Unit :=
  if !settings.csrfRequired then pure ()
  else match principal with
    | none => throw (.httpException 401 (lit "authentication required"))
    | some principal => do
      enforceOrigin request settings
      match ← suppliedToken tables codecs request with
      | none => throw (.httpException 403 (lit "invalid CSRF token"))
      | some supplied =>
        if MAX_CSRF_TOKEN_LENGTH < supplied.length then throw (.httpException 403 (lit "invalid CSRF token"))
        let same ← compared supplied principal.csrfToken
        if !same then throw (.httpException 403 (lit "invalid CSRF token"))

/-! ### What is let in -/

/-- The origin of the request is the configured one, or is not asked for. -/
def OriginPasses (settings : Settings) (request : Request) : Prop :=
  match request.origin with
  | none => settings.effectiveRequireOriginHeader = false
  | some origin => rstripSlash origin = rstripSlash settings.applicationOrigin

/-- The header supplies the token or, without a header, a field of the form. -/
def Supplies (request : Request) (token : Text) : Prop :=
  match request.csrfToken with
  | some supplied => supplied = token
  | none => Text.startsWith (fold tables (request.contentType.getD [])) FORM_MEDIA_TYPE = true ∧
      ∃ fields, IsForm tables codecs request fields ∧ fields.lookup (lit "csrf_token") = some token

/-- The origin passes and the token that is supplied is the one of the session. -/
def Accepted (settings : Settings) (principal : Principal) (request : Request) : Prop :=
  OriginPasses settings request ∧ Supplies tables codecs request principal.csrfToken

/-- The request is let in if it is accepted, and gets a controlled rejection otherwise. -/
def Clean (settings : Settings) (principal : Principal) (request : Request) : Prop :=
  (Accepted tables codecs settings principal request ∧ enforceCsrf tables codecs settings (some principal) request = .ok ()) ∨
    (¬ Accepted tables codecs settings principal request ∧
      Rejected (enforceCsrf tables codecs settings (some principal) request))

/-- What is compared is ASCII; without the checks, only what they would let in is let in. -/
structure Comparable (settings : Settings) (principal : Principal) (request : Request) : Prop where
  origin : settings.csrfRequired = true → ∀ origin ∈ request.origin,
    isAscii (rstripSlash origin) = true ∧ isAscii (rstripSlash settings.applicationOrigin) = true
  token : settings.csrfRequired = true → OriginPasses settings request → ∀ token, Supplies tables codecs request token →
    token.length ≤ MAX_CSRF_TOKEN_LENGTH → isAscii token = true
  unchecked : settings.csrfRequired = false → Accepted tables codecs settings principal request

theorem compared_ascii {a b : Text} (first : isAscii a = true) (second : isAscii b = true) : compared a b = .ok (a == b) := by
  simp [compared, compareDigest, first, second]

theorem compared_other {a b : Text} (other : ¬ (isAscii a = true ∧ isAscii b = true)) :
    compared a b = .error (.raised .typeError) := by
  rw [compared, compareDigest, if_neg (by simpa using other)]

theorem not_rejected {α : Type} {exception : Raised} : ¬ Rejected (.error (.raised exception) : Except Failure α) := by
  rintro ⟨status,detail,same,_⟩
  cases same

theorem rejected {α : Type} (detail : Text) : Rejected (.error (.httpException 403 detail) : Except Failure α) :=
  ⟨403,detail,rfl,by decide,by decide⟩

theorem Rejected.bind {α β : Type} {result : Except Failure α} (early : Rejected result) (next : α → Except Failure β) :
    Rejected (result.bind next) := by
  obtain ⟨status,detail,rfl,range⟩ := early
  exact ⟨status,detail,rfl,range⟩

theorem enforceOrigin_ascii {settings : Settings} {request : Request} (ascii : ∀ origin ∈ request.origin,
      isAscii (rstripSlash origin) = true ∧ isAscii (rstripSlash settings.applicationOrigin) = true) :
    (OriginPasses settings request ∧ enforceOrigin request settings = .ok ()) ∨
      (¬ OriginPasses settings request ∧ Rejected (enforceOrigin request settings)) := by
  unfold OriginPasses enforceOrigin
  cases given : request.origin with
  | none =>
    cases asked : settings.effectiveRequireOriginHeader with
    | false => exact .inl ⟨rfl,rfl⟩
    | true => exact .inr ⟨nofun,rejected _⟩
  | some origin =>
    obtain ⟨own,configured⟩ := ascii origin given
    simp only [compared_ascii own configured]
    by_cases same : rstripSlash origin = rstripSlash settings.applicationOrigin
    · refine .inl ⟨same,?_⟩
      rw [beq_iff_eq.mpr same]
      rfl
    · refine .inr ⟨same,?_⟩
      rw [beq_eq_false_iff_ne.mpr same]
      exact rejected _

theorem enforceOrigin_other {settings : Settings} {request : Request} {origin : Text} (given : request.origin = some origin)
    (other : ¬ (isAscii (rstripSlash origin) = true ∧ isAscii (rstripSlash settings.applicationOrigin) = true)) :
    enforceOrigin request settings = .error (.raised .typeError) := by
  simp only [enforceOrigin, given, compared_other other]
  rfl

theorem suppliedToken_spec (request : Request) :
    (∃ token, Supplies tables codecs request token ∧ suppliedToken tables codecs request = .ok (some token)) ∨
      ((∀ token, ¬ Supplies tables codecs request token) ∧
        (suppliedToken tables codecs request = .ok none ∨ Rejected (suppliedToken tables codecs request))) := by
  unfold Supplies suppliedToken
  cases request.csrfToken with
  | some token => exact .inl ⟨token,rfl,rfl⟩
  | none =>
    by_cases urlencoded : Text.startsWith (fold tables (request.contentType.getD [])) FORM_MEDIA_TYPE = true
    · simp only [urlencoded, true_and, if_true]
      rcases parseUrlencodedForm_spec tables codecs request with ⟨fields,form,read⟩ | ⟨malformed,status,detail,same,range⟩
      · have only (other : List (Text × Text)) (again : IsForm tables codecs request other) : other = fields :=
          Option.some.inj (again.read.symm.trans form.read)
        rw [read]
        cases found : fields.lookup (lit "csrf_token") with
        | some token => exact .inl ⟨token,⟨fields,form,found⟩,by rw [← found]; rfl⟩
        | none =>
          refine .inr ⟨?_,.inl (by rw [← found]; rfl)⟩
          rintro token ⟨other,again,some⟩
          rw [only other again, found] at some
          cases some
      · refine .inr ⟨?_,.inr ⟨status,detail,by rw [same]; rfl,range⟩⟩
        rintro token ⟨fields,form,_⟩
        exact malformed fields form
    · rw [if_neg urlencoded]
      exact .inr ⟨fun token supplies => urlencoded supplies.1,.inl rfl⟩

theorem supplies_unique {request : Request} {first second : Text} (one : Supplies tables codecs request first)
    (two : Supplies tables codecs request second) : first = second := by
  unfold Supplies at one two
  cases given : request.csrfToken with
  | some supplied =>
    rw [given] at one two
    exact one.symm.trans two
  | none =>
    rw [given] at one two
    obtain ⟨_,fields,form,found⟩ := one
    obtain ⟨_,_,again,found'⟩ := two
    cases form.read.symm.trans again.read
    exact Option.some.inj (found.symm.trans found')

/-- The check of the token that is supplied, if any is -/
def checkToken (principal : Principal) : Option Text → Except Failure Unit
  | none => .error (.httpException 403 (lit "invalid CSRF token"))
  | some supplied =>
    if MAX_CSRF_TOKEN_LENGTH < supplied.length then .error (.httpException 403 (lit "invalid CSRF token"))
    else (compared supplied principal.csrfToken).bind fun same =>
      if same then .ok () else .error (.httpException 403 (lit "invalid CSRF token"))

theorem enforceCsrf_required {settings : Settings} (required : settings.csrfRequired = true) (principal : Principal)
    (request : Request) : enforceCsrf tables codecs settings (some principal) request =
      (enforceOrigin request settings).bind fun _ =>
        (suppliedToken tables codecs request).bind fun supplied => checkToken principal supplied := by
  simp only [enforceCsrf, required, Bool.not_true, Bool.false_eq_true, if_false]
  refine congrArg (Except.bind _) (funext fun _ => congrArg (Except.bind _) (funext fun supplied => ?_))
  cases supplied with
  | none => rfl
  | some supplied =>
    unfold checkToken
    by_cases long : MAX_CSRF_TOKEN_LENGTH < supplied.length
    · simp only [long, if_true]
      rfl
    · simp only [long, if_false]
      refine congrArg (Except.bind _) (funext fun same => ?_)
      cases same <;> rfl

theorem token_ascii (principal : Principal) : isAscii principal.csrfToken = true := by
  refine List.all_eq_true.mpr fun c member => ?_
  have digit := principal.digest.2 c member
  have val : c.val.toNat = c.toNat := rfl
  simp only [isHexDigit, Char.isDigit, Bool.or_eq_true, Bool.and_eq_true, decide_eq_true_eq, Char.le_def,
    UInt32.le_iff_toNat_le, val] at digit
  refine decide_eq_true ?_
  rcases digit with (⟨_,small⟩ | ⟨_,small⟩) | ⟨_,small⟩
  all_goals exact lt_of_le_of_lt small (by decide)

theorem checkToken_ascii (principal : Principal) {supplied : Text}
    (ascii : supplied.length ≤ MAX_CSRF_TOKEN_LENGTH → isAscii supplied = true) :
    (supplied = principal.csrfToken ∧ checkToken principal (some supplied) = .ok ()) ∨
      (supplied ≠ principal.csrfToken ∧ Rejected (checkToken principal (some supplied))) := by
  have bound : principal.csrfToken.length ≤ MAX_CSRF_TOKEN_LENGTH := by
    rw [principal.digest.1]
    decide
  by_cases long : MAX_CSRF_TOKEN_LENGTH < supplied.length
  · refine .inr ⟨?_,by rw [checkToken, if_pos long]; exact rejected _⟩
    rintro rfl
    omega
  · rw [checkToken, if_neg long, compared_ascii (ascii (by omega)) (token_ascii principal)]
    by_cases same : supplied = principal.csrfToken
    · exact .inl ⟨same,by simp [same, Except.bind]⟩
    · exact .inr ⟨same,by simpa [same, Except.bind] using rejected _⟩

theorem checkToken_other (principal : Principal) {supplied : Text} (short : supplied.length ≤ MAX_CSRF_TOKEN_LENGTH)
    (other : ¬ isAscii supplied = true) : checkToken principal (some supplied) = .error (.raised .typeError) := by
  rw [checkToken, if_neg (by omega), compared_other fun both => other both.1]
  rfl

/-- A request is let in or turned away as it should be exactly if what is compared is ASCII. -/
theorem enforce_csrf_clean_iff (settings : Settings) (principal : Principal) (request : Request) :
    Clean tables codecs settings principal request ↔ Comparable tables codecs settings principal request := by
  by_cases required : settings.csrfRequired = true
  · have checked := enforceCsrf_required tables codecs required principal request
    by_cases ascii : ∀ origin ∈ request.origin,
        isAscii (rstripSlash origin) = true ∧ isAscii (rstripSlash settings.applicationOrigin) = true
    · rcases enforceOrigin_ascii ascii with ⟨passes,origin⟩ | ⟨foreign,turned⟩
      · rw [origin] at checked
        rcases suppliedToken_spec tables codecs request with ⟨token,supplies,read⟩ | ⟨unsupplied,read⟩
        · rw [read] at checked
          have only (other : Text) (again : Supplies tables codecs request other) : other = token :=
            supplies_unique tables codecs again supplies
          by_cases plain : token.length ≤ MAX_CSRF_TOKEN_LENGTH → isAscii token = true
          · have comparable : Comparable tables codecs settings principal request :=
              ⟨fun _ => ascii,fun _ _ other again => only other again ▸ plain,fun off => by rw [required] at off; cases off⟩
            refine iff_of_true ?_ comparable
            rcases checkToken_ascii principal plain with ⟨same,passed⟩ | ⟨other,turned⟩
            · exact .inl ⟨⟨passes,same ▸ supplies⟩,checked.trans passed⟩
            · exact .inr ⟨fun accepted => other (only _ accepted.2).symm,checked ▸ turned⟩
          · obtain ⟨short,other⟩ := Classical.not_imp.mp plain
            refine iff_of_false ?_ fun comparable => other (comparable.token required passes token supplies short)
            have raised : enforceCsrf tables codecs settings (some principal) request = .error (.raised .typeError) :=
              checked.trans (checkToken_other principal short other)
            rintro (⟨_,passed⟩ | ⟨_,turned⟩)
            · cases raised.symm.trans passed
            · exact not_rejected (raised ▸ turned)
        · refine iff_of_true (.inr ⟨fun accepted => unsupplied _ accepted.2,?_⟩)
            ⟨fun _ => ascii,fun _ _ token supplies => absurd supplies (unsupplied token),fun off => by
              rw [required] at off
              cases off⟩
          rw [checked]
          rcases read with none | turned
          · rw [none]
            exact rejected _
          · exact turned.bind _
      · refine iff_of_true (.inr ⟨fun accepted => foreign accepted.1,checked ▸ turned.bind _⟩)
          ⟨fun _ => ascii,fun _ passes => absurd passes foreign,fun off => by
            rw [required] at off
            cases off⟩
    · refine iff_of_false ?_ fun comparable => ascii (comparable.origin required)
      obtain ⟨origin,failing⟩ := not_forall.mp ascii
      obtain ⟨given,other⟩ := Classical.not_imp.mp failing
      rw [enforceOrigin_other given other] at checked
      rintro (⟨_,passed⟩ | ⟨_,turned⟩)
      · cases checked.symm.trans passed
      · exact not_rejected (checked ▸ turned)
  · have passed : enforceCsrf tables codecs settings (some principal) request = .ok () := by
      simp only [enforceCsrf, required]
      rfl
    constructor
    · rintro (⟨accepted,_⟩ | ⟨_,status,detail,same,_⟩)
      · exact ⟨fun on => absurd on required,fun on => absurd on required,fun _ => accepted⟩
      · cases passed.symm.trans same
    · intro comparable
      exact .inl ⟨comparable.unchecked (by simpa using required),passed⟩

/-- Codecs that read ASCII only. -/
def asciiCodecs : Codecs where
  decodeReplace bytes := bytes.map fun byte => if byte.toNat < 128 then Char.ofNat byte.toNat else '\ufffd'
  decimal _ := none

/-- The session whose token has zeros only. -/
def zeros : Principal :=
  ⟨List.replicate 64 '0',List.length_replicate,fun c member => by rw [List.eq_of_mem_replicate member]; rfl⟩

/-- A header that supplies a letter outside ASCII as the token makes the comparison raise. -/
theorem foreign_token_raises : ¬ ∀ (settings : ProductionSettings asciiTables) (principal : Principal) (request : Request),
    Clean asciiTables asciiCodecs settings.toSettings principal request := by
  intro claim
  have raised : enforceCsrf asciiTables asciiCodecs exampleSettings.toSettings (some zeros)
      ⟨some (lit "https://docguard.example"),some ['é'],none,none,[]⟩ = .error (.raised .typeError) := by rfl
  rcases claim exampleSettings zeros ⟨some (lit "https://docguard.example"),some ['é'],none,none,[]⟩ with
    ⟨_,passed⟩ | ⟨_,turned⟩
  · cases raised.symm.trans passed
  · exact not_rejected (raised ▸ turned)

end DocGuard.Csrf
