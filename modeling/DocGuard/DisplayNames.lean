import DocGuard.NameSecurity
import DocGuard.Trim

/-!
The name under which an upload is displayed. Its characters are always harmless; it
is also the name of itself, and shows something, exactly if no directional mark of
the given name shields a blank at its ends, the name is not cut behind a blank, and
the characters that are kept are in normal form.
-/
namespace DocGuard.DisplayNames
open DocGuard.NameSecurity (BIDI_CONTROLS)
open DocGuard.Trim

/-! ### The name -/

/-- `_CONTROL_RE` -/
def isControl (c : Char) : Bool := decide (c.toNat < 32) || c.toNat == 127

def isBidi (c : Char) : Bool := BIDI_CONTROLS.contains c

/-- `c.isspace()` -/
def isSpace (c : Char) : Bool :=
  let n := c.toNat
  (9 ≤ n && n ≤ 13) || (28 ≤ n && n ≤ 32) || n == 0x85 || n == 0xa0 || n == 0x1680 || (0x2000 ≤ n && n ≤ 0x200a) ||
    n == 0x2028 || n == 0x2029 || n == 0x202f || n == 0x205f || n == 0x3000

def isSeparator (c : Char) : Bool := c == '/' || c == '\\'

/-- The characters that no display name has. -/
def Harmful (c : Char) : Prop := isControl c ∨ isBidi c ∨ isSeparator c

/-- `unicodedata.normalize("NFC", text)`: it is idempotent, leaves ASCII as it is, and makes no harmful character; parts of
    a text in normal form are in normal form. -/
structure Nfc where
  normalize : Text → Text
  idempotent : ∀ text, normalize (normalize text) = normalize text
  ascii : ∀ text, (∀ c ∈ text, c.toNat < 128) → normalize text = text
  harmless : ∀ text, ∀ c ∈ normalize text, Harmful c → c ∈ text
  parts : ∀ text part, normalize text = text → part <:+: text → normalize part = part

/-- `value.strip()` -/
def strip (value : Text) : Text := trim isSpace value

/-- `value.replace("/", "_").replace("\\", "_")` -/
def separated (value : Text) : Text := value.map fun c => if isSeparator c then '_' else c

variable (nfc : Nfc)

/-- What is left of a name: without controls, without blanks at its ends, without bidirectional controls, and with
    underscores for separators. -/
def remainder (filename : Text) : Text :=
  separated ((strip ((nfc.normalize filename).filter fun c => !isControl c)).filter fun c => !isBidi c)

def unnamed : Text := lit "unnamed-document"

/-- `value in {"", ".", ".."}` -/
def Nameless (value : Text) : Prop := value = [] ∨ value = ['.'] ∨ value = ['.','.']

instance (value : Text) : Decidable (Nameless value) := by
  unfold Nameless
  infer_instance

/-- `normalize_display_filename` -/
def normalizeDisplayFilename (filename : Text) (maxLength : Nat := 255) : Text :=
  let value := remainder nfc filename
  if Nameless value then unnamed else value.take maxLength

/-! ### Harmless characters -/

/-- A name to display: of 1 to 255 characters, not all of them blank, and none of them harmful. -/
structure Clean (name : Text) : Prop where
  length : 1 ≤ name.length ∧ name.length ≤ 255
  shown : ∃ c ∈ name, isSpace c = false
  harmless : ∀ c ∈ name, ¬ Harmful c

theorem separated_harmless {value : Text} (plain : ∀ c ∈ value, isControl c = false ∧ isBidi c = false) :
    ∀ c ∈ separated value, ¬ Harmful c := by
  intro c member
  obtain ⟨given,inside,rfl⟩ := List.mem_map.mp member
  split
  · rintro (control | bidi | separator)
    · exact absurd control (by decide)
    · exact absurd bidi (by decide)
    · exact absurd separator (by decide)
  · rename_i other
    rintro (control | bidi | separator)
    · rw [(plain given inside).1] at control
      cases control
    · rw [(plain given inside).2] at bidi
      cases bidi
    · exact other separator

theorem separated_self {value : Text} (harmless : ∀ c ∈ value, ¬ Harmful c) : separated value = value := by
  have same : ∀ c ∈ value, (if isSeparator c then '_' else c) = c := fun c member =>
    if_neg fun separator => harmless c member (.inr (.inr separator))
  rw [separated, List.map_congr_left same, List.map_id']

theorem remainder_harmless (filename : Text) : ∀ c ∈ remainder nfc filename, ¬ Harmful c := by
  refine separated_harmless fun c member => ?_
  obtain ⟨inside,bidi⟩ := List.mem_filter.mp member
  obtain ⟨_,control⟩ := List.mem_filter.mp ((trim_part _).subset inside)
  exact ⟨by simpa using control,by simpa using bidi⟩

/-- Of a name without harmful characters, only blanks at its ends are left out. -/
theorem remainder_of_harmless {name : Text} (harmless : ∀ c ∈ name, ¬ Harmful c) :
    remainder nfc name = strip (nfc.normalize name) := by
  have normal : ∀ c ∈ nfc.normalize name, ¬ Harmful c := fun c member harmful =>
    harmless c (nfc.harmless name c member harmful) harmful
  have controls : (nfc.normalize name).filter (fun c => !isControl c) = nfc.normalize name :=
    List.filter_eq_self.mpr fun c member => by simpa using fun control => normal c member (.inl control)
  have stripped : ∀ c ∈ strip (nfc.normalize name), ¬ Harmful c := fun c member =>
    normal c ((trim_part _).subset member)
  have bidis : (strip (nfc.normalize name)).filter (fun c => !isBidi c) = strip (nfc.normalize name) :=
    List.filter_eq_self.mpr fun c member => by simpa using fun bidi => stripped c member (.inr (.inl bidi))
  rw [remainder, controls, bidis, separated_self stripped]

/-! ### Names that are their own -/

theorem ascii_of_all {value : Text} (checked : value.all (fun c => decide (c.toNat < 128)) = true) :
    ∀ c ∈ value, c.toNat < 128 := fun c member => by simpa using List.all_eq_true.mp checked c member

theorem unnamed_clean : Clean unnamed :=
  ⟨by decide,⟨'u',by decide,by decide⟩,by
    have plain : unnamed.all (fun c => !isControl c && !isBidi c && !isSeparator c) = true := by decide
    intro c member
    have checked := List.all_eq_true.mp plain c member
    rintro (control | bidi | separator) <;> simp_all⟩

theorem unnamed_stable : normalizeDisplayFilename nfc unnamed = unnamed := by
  have normal : nfc.normalize unnamed = unnamed := nfc.ascii _ (ascii_of_all rfl)
  rw [normalizeDisplayFilename, remainder_of_harmless nfc unnamed_clean.harmless, normal]
  decide

/-- A display name that is its own is in normal form, and has no blank at its ends. -/
theorem stable_settled {name : Text} (harmless : ∀ c ∈ name, ¬ Harmful c)
    (stable : normalizeDisplayFilename nfc name = name) : strip name = name ∧ nfc.normalize name = name := by
  by_cases nameless : Nameless (strip (nfc.normalize name))
  · have same : unnamed = name := by
      rwa [normalizeDisplayFilename, remainder_of_harmless nfc harmless, if_pos nameless] at stable
    subst same
    exact ⟨by decide,nfc.ascii _ (ascii_of_all rfl)⟩
  · have cut : (strip (nfc.normalize name)).take 255 = name := by
      rwa [normalizeDisplayFilename, remainder_of_harmless nfc harmless, if_neg nameless] at stable
    have inside := (List.take_prefix 255 (strip (nfc.normalize name))).isInfix.trans (trim_part _)
    rw [cut] at inside
    have normal : nfc.normalize name = name := nfc.parts _ _ (nfc.idempotent name) inside
    rw [normal] at cut
    refine ⟨(trim_part name).eq_of_length_le ?_,normal⟩
    calc name.length = ((strip name).take 255).length := by rw [cut]
      _ ≤ (strip name).length := List.length_take_le' _ _

/-- A name in normal form, with no blank at its ends, is clean and is its own display name. -/
theorem settled_clean {name : Text} (harmless : ∀ c ∈ name, ¬ Harmful c) (short : name.length ≤ 255)
    (named : ¬ Nameless name) (stripped : strip name = name) (normal : nfc.normalize name = name) :
    Clean name ∧ normalizeDisplayFilename nfc name = name := by
  have present : name ≠ [] := fun none => named (.inl none)
  refine ⟨⟨⟨List.length_pos_iff.mpr present,short⟩,?_,harmless⟩,?_⟩
  · by_contra hidden
    have blank : ∀ c ∈ name, isSpace c = true := fun c member => by
      by_contra shown
      exact hidden ⟨c,member,by simpa using shown⟩
    exact present (stripped.symm.trans (trim_eq_nil blank))
  · have left : remainder nfc name = name := by rw [remainder_of_harmless nfc harmless, normal, stripped]
    rw [normalizeDisplayFilename, left, if_neg named, List.take_of_length_le short]

/-! ### The names that are displayed well -/

/-- The given name in normal form, without its controls. -/
def plain (filename : Text) : Text := (nfc.normalize filename).filter fun c => !isControl c

/-- The name without its directional marks, and then without the blanks at its ends. -/
def bare (filename : Text) : Text := trim isSpace ((plain nfc filename).filter fun c => !isBidi c)

/-- No directional mark shields a blank at the front of the name, or at its end if the name is not cut; the name is not cut
    behind a blank; and the characters that are kept are in normal form. -/
structure Settled (filename : Text) : Prop where
  front : ¬ Shielded isSpace (fun c => !isBidi c) (plain nfc filename)
  back : (bare nfc filename).length < 255 → ¬ Shielded isSpace (fun c => !isBidi c) (plain nfc filename).reverse
  cut : ∀ c, (bare nfc filename)[254]? = some c → isSpace c = false
  normal : nfc.normalize (separated ((bare nfc filename).take 255)) = separated ((bare nfc filename).take 255)

/-- What is left of the name, before separators are replaced. -/
def left (filename : Text) : Text := (strip (plain nfc filename)).filter fun c => !isBidi c

theorem isSpace_separated (c : Char) : isSpace (if isSeparator c then '_' else c) = isSpace c := by
  by_cases separator : isSeparator c
  · rw [if_pos separator]
    rcases Bool.or_eq_true_iff.mp separator with slash | backslash
    · rw [eq_of_beq slash]
      decide
    · rw [eq_of_beq backslash]
      decide
  · rw [if_neg separator]

theorem blank_kept (c : Char) (blank : isSpace c = true) : (!isBidi c) = true := by
  by_contra marked
  have marks : BIDI_CONTROLS.all (fun d => !isSpace d) = true := by decide
  have member : c ∈ BIDI_CONTROLS := by simpa [isBidi] using marked
  have sharp := List.all_eq_true.mp marks c member
  rw [blank] at sharp
  cases sharp

theorem trim_left (filename : Text) : trim isSpace (left nfc filename) = bare nfc filename :=
  trim_filter_trim _ _

theorem begins_left (filename : Text) :
    Begins isSpace (left nfc filename) ↔ Shielded isSpace (fun c => !isBidi c) (plain nfc filename) :=
  begins_filter_trim blank_kept _

theorem ends_left (filename : Text) :
    Ends isSpace (left nfc filename) ↔ Shielded isSpace (fun c => !isBidi c) (plain nfc filename).reverse := by
  rw [← begins_filter_trim blank_kept, trim_reverse, List.filter_reverse, begins_reverse]
  rfl

theorem strip_separated (value : Text) :
    strip (separated value) = separated value ↔ trim isSpace value = value := by
  have commutes : strip (separated value) = separated (trim isSpace value) := trim_map isSpace_separated value
  rw [commutes]
  constructor
  · intro same
    have lengths := congrArg List.length same
    simp only [separated, List.length_map] at lengths
    exact (trim_part value).eq_of_length lengths
  · exact congrArg separated

/-- What is left of a settled name, up to where it is cut, has no blank at its ends and is in normal form. -/
theorem settled_iff (filename : Text) : Settled nfc filename ↔
    strip ((remainder nfc filename).take 255) = (remainder nfc filename).take 255 ∧
      nfc.normalize ((remainder nfc filename).take 255) = (remainder nfc filename).take 255 := by
  have taken : (remainder nfc filename).take 255 = separated ((left nfc filename).take 255) := List.map_take.symm
  rw [taken, strip_separated, trim_take_iff, trim_left, begins_left, ends_left]
  constructor
  · intro settled
    have kept := take_trim (p := isSpace) (l := left nfc filename) (n := 255)
    rw [begins_left, trim_left, ends_left] at kept
    have normal := settled.normal
    rw [kept settled.front settled.back] at normal
    exact ⟨⟨settled.front,settled.back,settled.cut⟩,normal⟩
  · rintro ⟨⟨front,back,cut⟩,normal⟩
    have kept := take_trim (p := isSpace) (l := left nfc filename) (n := 255)
    rw [begins_left, trim_left, ends_left] at kept
    refine ⟨front,back,cut,?_⟩
    rw [kept front back]
    exact normal

theorem settled_of_nameless {filename : Text} (nameless : Nameless (remainder nfc filename)) : Settled nfc filename := by
  rw [settled_iff]
  rcases nameless with same | same | same
  all_goals
    rw [same]
    exact ⟨by decide,nfc.ascii _ (ascii_of_all rfl)⟩

theorem nameless_of_take {value : Text} (nameless : Nameless (value.take 255)) : Nameless value := by
  have few : (value.take 255).length ≤ 2 := by
    rcases nameless with same | same | same
    all_goals
      rw [same]
      decide
  rw [List.length_take] at few
  rwa [List.take_of_length_le (by omega)] at nameless

/-- The displayed name is clean, and the displayed name of itself, exactly if the given name is settled. -/
theorem display_names_settled_iff (filename : Text) :
    (Clean (normalizeDisplayFilename nfc filename) ∧ normalizeDisplayFilename nfc (normalizeDisplayFilename nfc filename) =
      normalizeDisplayFilename nfc filename) ↔ Settled nfc filename := by
  by_cases nameless : Nameless (remainder nfc filename)
  · rw [normalizeDisplayFilename, if_pos nameless]
    exact ⟨fun _ => settled_of_nameless nfc nameless,fun _ => ⟨unnamed_clean,unnamed_stable nfc⟩⟩
  · have display : normalizeDisplayFilename nfc filename = (remainder nfc filename).take 255 := if_neg nameless
    have harmless : ∀ c ∈ (remainder nfc filename).take 255, ¬ Harmful c := fun c member =>
      remainder_harmless nfc filename c (List.mem_of_mem_take member)
    rw [display, settled_iff]
    constructor
    · rintro ⟨_,stable⟩
      exact stable_settled nfc harmless stable
    · rintro ⟨stripped,normal⟩
      have named : ¬ Nameless ((remainder nfc filename).take 255) := fun none => nameless (nameless_of_take none)
      exact settled_clean nfc harmless (List.length_take_le _ _) named stripped normal

/-- A normal form that leaves every text as it is. -/
def unchanged : Nfc :=
  ⟨id,fun _ => rfl,fun _ _ => rfl,fun _ _ member _ => member,fun _ _ _ _ => rfl⟩

/-- A blank between two directional marks is left over, and is shown as a blank. -/
theorem marked_blank_shown : ¬ ∀ filename : Text, Clean (normalizeDisplayFilename unchanged filename) ∧
    normalizeDisplayFilename unchanged (normalizeDisplayFilename unchanged filename) =
      normalizeDisplayFilename unchanged filename := by
  intro claim
  have blank : normalizeDisplayFilename unchanged ['\u200e',' ','\u200e'] = [' '] := by decide
  have stable := (claim ['\u200e',' ','\u200e']).2
  rw [blank] at stable
  exact absurd stable (by decide)

end DocGuard.DisplayNames
