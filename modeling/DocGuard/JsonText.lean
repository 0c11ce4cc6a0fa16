import DocGuard.Json

/-!
The reader of JSON text, as `json.loads` reads it, and its inverse: the canonical
text of a value is read back as that value. Texts have no lone surrogates, and
values have no infinite floats and no NaN; the reader gives up on them.
-/
namespace DocGuard.Json

/-! ### Characters -/

def blank (c : Char) : Bool := c == ' ' || c == '\t' || c == '\n' || c == '\r'

def skip (text : Text) : Text := text.dropWhile blank

def hexValue (c : Char) : Option Nat :=
  if '0' ≤ c ∧ c ≤ '9' then some (c.toNat - 48)
  else if 'a' ≤ c ∧ c ≤ 'f' then some (c.toNat - 87)
  else if 'A' ≤ c ∧ c ≤ 'F' then some (c.toNat - 55)
  else none

/-- The four digits of a code unit. -/
def readUnit : Text → Option (Nat × Text)
  | a :: b :: c :: d :: rest => do
    let a ← hexValue a
    let b ← hexValue b
    let c ← hexValue c
    let d ← hexValue d
    return (a * 4096 + b * 256 + c * 16 + d,rest)
  | _ => none

/-- The lower half of a surrogate pair. -/
def readLow (high : Nat) : Text → Option (Char × Text)
  | '\\' :: 'u' :: more => do
    let (low,rest) ← readUnit more
    if 0xdc00 ≤ low ∧ low < 0xe000 then
      return (Char.ofNat (0x10000 + (high - 0xd800) * 0x400 + (low - 0xdc00)),rest)
    else none
  | _ => none

/-- What follows `\u`. -/
def readUnicode (text : Text) : Option (Char × Text) := do
  let (unit,rest) ← readUnit text
  if 0xd800 ≤ unit ∧ unit < 0xdc00 then readLow unit rest
  else if 0xdc00 ≤ unit ∧ unit < 0xe000 then none
  else return (Char.ofNat unit,rest)

def shortEscape (c : Char) : Option Char :=
  if c = '"' then some '"'
  else if c = '\\' then some '\\'
  else if c = '/' then some '/'
  else if c = 'n' then some '\n'
  else if c = 'r' then some '\r'
  else if c = 't' then some '\t'
  else if c = 'b' then some (Char.ofNat 8)
  else if c = 'f' then some (Char.ofNat 12)
  else none

/-- One character of a string, which starts with `c`. -/
def readChar (c : Char) (rest : Text) : Option (Char × Text) :=
  if c = '\\' then
    match rest with
    | [] => none
    | e :: more => if e = 'u' then readUnicode more else (shortEscape e).map fun c => (c,more)
  else if c.toNat < 32 then none
  else some (c,rest)

/-- A string after its opening quote; each turn reads a character. -/
def readString : Nat → Text → Option (Text × Text)
  | 0,_ => none
  | _,[] => none
  | turns+1,c :: rest =>
    if c = '"' then some ([],rest)
    else do
      let (first,rest) ← readChar c rest
      let (later,rest) ← readString turns rest
      return (first :: later,rest)

/-! ### Numbers -/

def digits (text : Text) : Text := text.takeWhile Char.isDigit

/-- The fraction, with its point. -/
def fraction : Text → Text
  | '.' :: rest => if digits rest = [] then [] else '.' :: digits rest
  | _ => []

def signOf : Text → Text
  | '+' :: _ => ['+']
  | '-' :: _ => ['-']
  | _ => []

/-- The exponent, with its letter. -/
def exponent : Text → Text
  | c :: rest =>
    let sign := signOf rest
    let number := digits (rest.drop sign.length)
    if (c = 'e' ∨ c = 'E') ∧ number ≠ [] then c :: sign ++ number else []
  | [] => []

/-- The digits before the point; nothing follows a leading zero. -/
def whole (text : Text) : Text :=
  match text with
  | '0' :: _ => ['0']
  | _ => digits text

/-- A number; `floatRepr` gives `repr(float(token))` for the token of a float. -/
def readNumber (floatRepr : Text → Text) (text : Text) : Option (Value × Text) :=
  let sign := if text.head? = some '-' then ['-'] else []
  let unsigned := text.drop sign.length
  let whole := whole unsigned
  let afterWhole := unsigned.drop whole.length
  let fraction := fraction afterWhole
  let afterFraction := afterWhole.drop fraction.length
  let exponent := exponent afterFraction
  let rest := afterFraction.drop exponent.length
  if whole = [] then none
  else if fraction = [] ∧ exponent = [] then
    let n : Int := Nat.ofDigitChars 10 whole 0
    some (.int (if sign = [] then n else -n),rest)
  else some (.float (floatRepr (sign ++ whole ++ fraction ++ exponent)),rest)

/-! ### Values -/

/-- The rest of a word, and what it stands for. -/
def readWord (word : Text) (value : Value) (text : Text) : Option (Value × Text) :=
  if word.isPrefixOf text then some (value,text.drop word.length) else none

/-- `dict[key] = value`: a key keeps its place. -/
def put (key : Text) (value : Value) : List (Text × Value) → List (Text × Value)
  | [] => [(key,value)]
  | (k,v) :: rest => if k = key then (k,value) :: rest else (k,v) :: put key value rest

/-- `dict(pairs)` -/
def toDict (pairs : List (Text × Value)) : List (Text × Value) :=
  pairs.foldl (fun fields pair => put pair.1 pair.2 fields) []

variable (floatRepr : Text → Text)

mutual
/-- A value at the start of a text, and what follows it. -/
def readValue : Nat → Text → Option (Value × Text)
  | 0,_ => none
  | _,[] => none
  | fuel+1,c :: rest =>
    if c = '"' then (readString (rest.length + 1) rest).map fun (s,rest) => (.str s,rest)
    else if c = '[' then
      let rest := skip rest
      if rest.head? = some ']' then some (.arr [],rest.drop 1)
      else (readItems fuel rest).map fun (items,rest) => (.arr items,rest)
    else if c = '{' then
      let rest := skip rest
      if rest.head? = some '}' then some (.obj [],rest.drop 1)
      else (readFields fuel rest).map fun (pairs,rest) => (.obj (toDict pairs),rest)
    else if c = 'n' then readWord (lit "ull") .null rest
    else if c = 't' then readWord (lit "rue") (.bool true) rest
    else if c = 'f' then readWord (lit "alse") (.bool false) rest
    else readNumber floatRepr (c :: rest)
/-- The items of an array, with its end. -/
def readItems : Nat → Text → Option (List Value × Text)
  | 0,_ => none
  | fuel+1,text => do
    let (item,rest) ← readValue fuel text
    let rest := skip rest
    if rest.head? = some ',' then do
      let (items,rest) ← readItems fuel (skip (rest.drop 1))
      return (item :: items,rest)
    else if rest.head? = some ']' then return ([item],rest.drop 1)
    else none
/-- The fields of an object, with its end. -/
def readFields : Nat → Text → Option (List (Text × Value) × Text)
  | 0,_ => none
  | fuel+1,text =>
    if text.head? = some '"' then do
      let (key,rest) ← readString text.length (text.drop 1)
      let rest := skip rest
      if rest.head? = some ':' then do
        let (value,rest) ← readValue fuel (skip (rest.drop 1))
        let rest := skip rest
        if rest.head? = some ',' then do
          let (pairs,rest) ← readFields fuel (skip (rest.drop 1))
          return ((key,value) :: pairs,rest)
        else if rest.head? = some '}' then return ([(key,value)],rest.drop 1)
        else none
      else none
    else none
end

/-- `json.loads` -/
def loads (text : Text) : Option Value :=
  match readValue floatRepr (text.length + 1) (skip text) with
  | some (value,rest) => if skip rest = [] then some value else none
  | none => none

/-! ### Strings are read back -/

theorem hexValue_digitChar : ∀ n < 16, hexValue (Nat.digitChar n) = some n := by decide

theorem readUnit_hex4 {n : Nat} (small : n < 0x10000) (rest : Text) : readUnit (hex4 n ++ rest) = some (n,rest) := by
  have a := hexValue_digitChar (n / 4096 % 16) (Nat.mod_lt _ (by decide))
  have b := hexValue_digitChar (n / 256 % 16) (Nat.mod_lt _ (by decide))
  have c := hexValue_digitChar (n / 16 % 16) (Nat.mod_lt _ (by decide))
  have d := hexValue_digitChar (n % 16) (Nat.mod_lt _ (by decide))
  have sum : n / 4096 % 16 * 4096 + n / 256 % 16 * 256 + n / 16 % 16 * 16 + n % 16 = n := by omega
  simp only [hex4, List.cons_append, List.nil_append, readUnit, a, b, c, d, Option.bind_eq_bind, Option.bind_some, sum]
  rfl

theorem char_valid (c : Char) : c.toNat < 0xd800 ∨ 0xdfff < c.toNat ∧ c.toNat < 0x110000 := by
  have valid : c.toNat.isValidChar := c.valid
  exact valid

theorem readUnicode_single (c : Char) (rest : Text) (short : c.toNat < 0x10000) :
    readUnicode (hex4 c.toNat ++ rest) = some (c,rest) := by
  have valid := char_valid c
  have high : ¬ (0xd800 ≤ c.toNat ∧ c.toNat < 0xdc00) := by omega
  have low : ¬ (0xdc00 ≤ c.toNat ∧ c.toNat < 0xe000) := by omega
  simp only [readUnicode, readUnit_hex4 short, Option.bind_eq_bind, Option.bind_some, if_neg high, if_neg low,
    Char.ofNat_toNat, Option.pure_def]

/-- The two halves of a surrogate pair. -/
theorem readUnicode_pair {n high low : Nat} (rest : Text) (long : 0x10000 ≤ n) (small : n < 0x110000)
    (up : high = 0xd800 + (n - 0x10000) / 0x400) (down : low = 0xdc00 + (n - 0x10000) % 0x400) :
    readUnicode (hex4 high ++ '\\' :: 'u' :: hex4 low ++ rest) = some (Char.ofNat n,rest) := by
  have highSmall : high < 0x10000 := by omega
  have lowSmall : low < 0x10000 := by omega
  have upper : 0xd800 ≤ high ∧ high < 0xdc00 := by omega
  have lower : 0xdc00 ≤ low ∧ low < 0xe000 := by omega
  have sum : 0x10000 + (high - 0xd800) * 0x400 + (low - 0xdc00) = n := by omega
  simp only [readUnicode, List.append_assoc, readUnit_hex4 highSmall, Option.bind_eq_bind, Option.bind_some, if_pos upper,
    List.cons_append, readLow, readUnit_hex4 lowSmall, if_pos lower, sum, Option.pure_def]

theorem readUnicode_escape (c : Char) (rest : Text) :
    ∃ more, unicodeEscape c.toNat = '\\' :: 'u' :: more ∧ readUnicode (more ++ rest) = some (c,rest) := by
  have valid := char_valid c
  unfold unicodeEscape
  by_cases short : c.toNat < 0x10000
  · rw [if_pos short]
    exact ⟨_,rfl,readUnicode_single c rest short⟩
  · have pair := readUnicode_pair rest (Nat.le_of_not_lt short) (by omega) rfl rfl
    rw [if_neg short]
    rw [Char.ofNat_toNat] at pair
    exact ⟨_,rfl,pair⟩

/-- A character is read back from its escape. -/
theorem readChar_escape (ascii : Bool) (c : Char) (rest : Text) :
    ∃ first more, escapeChar ascii c = first :: more ∧ first ≠ '"' ∧ readChar first (more ++ rest) = some (c,rest) := by
  have unicode : ∃ first more, unicodeEscape c.toNat = first :: more ∧ first ≠ '"' ∧
      readChar first (more ++ rest) = some (c,rest) := by
    obtain ⟨more,spelled,read⟩ := readUnicode_escape c rest
    exact ⟨_,_,spelled,by decide,by simpa [readChar] using read⟩
  have same (n : Nat) (value : c.toNat = n) : Char.ofNat n = c := by rw [← value, Char.ofNat_toNat]
  unfold escapeChar
  split
  · rename_i value
    exact ⟨_,_,rfl,by decide,by simp [readChar, shortEscape, value]⟩
  split
  · rename_i value
    exact ⟨_,_,rfl,by decide,by simp [readChar, shortEscape, value]⟩
  split
  · rename_i value
    exact ⟨_,_,rfl,by decide,by simp [readChar, shortEscape, value]⟩
  split
  · rename_i value
    exact ⟨_,_,rfl,by decide,by simp [readChar, shortEscape, value]⟩
  split
  · rename_i value
    exact ⟨_,_,rfl,by decide,by simp [readChar, shortEscape, value]⟩
  split
  · rename_i value
    refine ⟨_,_,rfl,by decide,?_⟩
    rw [← same 8 value]
    rfl
  split
  · rename_i value
    refine ⟨_,_,rfl,by decide,?_⟩
    rw [← same 12 value]
    rfl
  split
  · exact unicode
  split
  · exact unicode
  · rename_i quote backslash _ _ _ _ _ control _
    exact ⟨_,_,rfl,quote,by simp [readChar, backslash, control]⟩

theorem readString_escaped (ascii : Bool) (s rest : Text) {turns : Nat} (enough : s.length < turns) :
    readString turns (s.flatMap (escapeChar ascii) ++ '"' :: rest) = some (s,rest) := by
  induction s generalizing turns with
  | nil =>
    obtain ⟨turns,rfl⟩ := Nat.exists_eq_succ_of_ne_zero (Nat.ne_of_gt enough)
    rfl
  | cons c s ih =>
    obtain ⟨turns,rfl⟩ := Nat.exists_eq_succ_of_ne_zero (Nat.ne_of_gt (Nat.zero_lt_of_lt enough))
    obtain ⟨first,more,spelled,other,read⟩ := readChar_escape ascii c (s.flatMap (escapeChar ascii) ++ '"' :: rest)
    rw [List.flatMap_cons, spelled, List.append_assoc, List.cons_append, readString, if_neg other, read]
    simp only [Option.bind_eq_bind, Option.bind_some, ih (Nat.lt_of_succ_lt_succ enough)]
    rfl

theorem escapeChar_length_pos (ascii : Bool) (c : Char) : 0 < (escapeChar ascii c).length := by
  obtain ⟨first,more,spelled,_⟩ := readChar_escape ascii c []
  rw [spelled]
  exact Nat.succ_pos _

theorem escaped_length (ascii : Bool) (s : Text) : s.length ≤ (s.flatMap (escapeChar ascii)).length := by
  induction s with
  | nil => exact Nat.le_refl _
  | cons c s ih =>
    have more := escapeChar_length_pos ascii c
    rw [List.flatMap_cons, List.length_append, List.length_cons]
    omega

/-! ### Numbers are read back -/

/-- What may follow a value in the text of another. -/
def Ends (rest : Text) : Prop := ∀ c ∈ rest.head?, c = ',' ∨ c = ']' ∨ c = '}'

theorem ends_nil : Ends [] := nofun

theorem ends_cons {c : Char} {rest : Text} (ends : c = ',' ∨ c = ']' ∨ c = '}') : Ends (c :: rest) := by
  intro c' head
  rw [List.head?_cons, Option.mem_some_iff] at head
  exact head ▸ ends

/-- No digit follows. -/
def Stops (rest : Text) : Prop := ∀ c ∈ rest.head?, c.isDigit = false

theorem Ends.stops {rest : Text} (ends : Ends rest) : Stops rest := by
  intro c head
  rcases ends c head with rfl | rfl | rfl
  · decide
  · decide
  · decide

theorem digits_append {ds rest : Text} (all : ∀ c ∈ ds, c.isDigit = true) (stops : Stops rest) :
    digits (ds ++ rest) = ds := by
  rw [digits, List.takeWhile_append_of_pos all]
  cases rest with
  | nil => simp
  | cons c rest => simp [stops c rfl]

theorem fraction_ends {rest : Text} (ends : Ends rest) : fraction rest = [] := by
  cases rest with
  | nil => rfl
  | cons c rest =>
    rcases ends c rfl with rfl | rfl | rfl
    · rfl
    · rfl
    · rfl

theorem exponent_ends {rest : Text} (ends : Ends rest) : exponent rest = [] := by
  cases rest with
  | nil => rfl
  | cons c rest =>
    have other : ¬ (c = 'e' ∨ c = 'E') := by
      rcases ends c rfl with rfl | rfl | rfl
      · decide
      · decide
      · decide
    simp [exponent, other]

theorem toDigits_head (n : Nat) (zero : (Nat.toDigits 10 n).head? = some '0') : n = 0 := by
  induction n using Nat.strongRecOn with
  | ind n ih =>
    by_cases small : n < 10
    · have every : ∀ n < 10, (Nat.toDigits 10 n).head? = some '0' → n = 0 := by decide
      exact every n small zero
    · rw [Nat.toDigits_of_base_le (by decide) (by omega), List.head?_append_of_ne_nil _ Nat.toDigits_ne_nil] at zero
      have before := ih (n / 10) (by omega) zero
      omega

theorem whole_toDigits {n : Nat} {rest : Text} (stops : Stops rest) : whole (Nat.toDigits 10 n ++ rest) = Nat.toDigits 10 n := by
  have all : ∀ c ∈ Nat.toDigits 10 n, c.isDigit = true := fun _ => Nat.isDigit_of_mem_toDigits (by decide) (by decide)
  unfold whole
  split
  · rename_i leading more spelled
    have head : (Nat.toDigits 10 n).head? = some '0' := by
      rw [← List.head?_append_of_ne_nil _ Nat.toDigits_ne_nil, spelled]
      rfl
    rw [toDigits_head n head]
    rfl
  · exact digits_append all stops

theorem toDigits_no_sign (n : Nat) (rest : Text) : (Nat.toDigits 10 n ++ rest).head? ≠ some '-' := by
  rw [List.head?_append_of_ne_nil _ Nat.toDigits_ne_nil]
  intro sign
  have digit := Nat.isDigit_of_mem_toDigits (by decide) (by decide) (List.mem_of_mem_head? sign)
  cases digit

theorem readNumber_digits {n : Nat} {rest : Text} (ends : Ends rest) :
    readNumber floatRepr (Nat.toDigits 10 n ++ rest) = some (.int n,rest) ∧
      readNumber floatRepr ('-' :: Nat.toDigits 10 n ++ rest) = some (.int (-n),rest) := by
  have some := Nat.toDigits_ne_nil (n := n) (b := 10)
  have unsigned := toDigits_no_sign n rest
  constructor
  · simp only [readNumber, if_neg unsigned, List.length_nil, List.drop_zero, whole_toDigits ends.stops, List.drop_left,
      fraction_ends ends, exponent_ends ends, if_neg some, and_self, if_true, Nat.ofDigitChars_ten_toDigits]
  · simp only [readNumber, List.cons_append, List.head?_cons, if_true, List.length_singleton, List.drop_succ_cons,
      List.drop_zero, whole_toDigits ends.stops, List.drop_left, List.length_nil, fraction_ends ends, exponent_ends ends,
      if_neg some, and_self, Nat.ofDigitChars_ten_toDigits, List.cons_ne_nil, if_false]

theorem readNumber_intText (n : Int) {rest : Text} (ends : Ends rest) :
    readNumber floatRepr (intText n ++ rest) = some (.int n,rest) := by
  unfold intText
  split
  · rename_i negative
    rw [(readNumber_digits floatRepr ends).2]
    have value : -(n.natAbs : Int) = n := by omega
    rw [value]
  · rename_i natural
    rw [(readNumber_digits floatRepr ends).1]
    have value : (n.natAbs : Int) = n := by omega
    rw [value]

/-! ### Values are read back -/

/-- A text of a float that is read as the whole of it. -/
def FloatToken (text : Text) : Prop :=
  ∀ rest, Ends rest → readNumber floatRepr (text ++ rest) = some (.float text,rest)

mutual
/-- The fields of objects are in the order of their keys, and floats are kept as they are printed. -/
def Canonical : Value → Prop
  | .float text => FloatToken floatRepr text
  | .arr items => CanonicalItems items
  | .obj fields => (fields.map Prod.fst).Pairwise (· < ·) ∧ CanonicalFields fields
  | .null | .bool _ | .int _ | .str _ => True
def CanonicalItems : List Value → Prop
  | [] => True
  | item :: rest => Canonical item ∧ CanonicalItems rest
def CanonicalFields : List (Text × Value) → Prop
  | [] => True
  | (_,value) :: rest => Canonical value ∧ CanonicalFields rest
end

/-- The text starts with a character that is neither blank nor the end of an array. -/
def Solid (text : Text) : Prop := ∃ c rest, text = c :: rest ∧ blank c = false ∧ c ≠ ']'

theorem skip_solid {c : Char} (rest : Text) (solid : blank c = false) : skip (c :: rest) = c :: rest := by
  rw [skip, List.dropWhile_cons_of_neg (by simpa using solid)]

theorem Solid.skip {text : Text} (solid : Solid text) (rest : Text) : skip (text ++ rest) = text ++ rest := by
  obtain ⟨c,more,rfl,some,_⟩ := solid
  exact skip_solid _ some

theorem Solid.open_ {text : Text} (solid : Solid text) (rest : Text) : (text ++ rest).head? ≠ some ']' := by
  obtain ⟨c,more,rfl,_,other⟩ := solid
  simpa using other

/-- The first character of a number. -/
theorem readNumber_head {c : Char} {text : Text} {result : Value × Text}
    (read : readNumber floatRepr (c :: text) = some result) : c = '-' ∨ c.isDigit = true := by
  by_contra other
  obtain ⟨sign,digit⟩ := not_or.mp other
  have zero : c ≠ '0' := by
    rintro rfl
    exact digit (by decide)
  have none : whole (c :: text) = [] := by
    unfold whole
    split
    · rename_i spelled
      exact absurd (List.cons.inj spelled).1 zero
    · rw [digits, List.takeWhile_cons_of_neg digit]
  simp [readNumber, sign, none] at read

theorem digit_solid {c : Char} (number : c = '-' ∨ c.isDigit = true) :
    blank c = false ∧ c ≠ ']' ∧ c ≠ '"' ∧ c ≠ '[' ∧ c ≠ '{' ∧ c ≠ 'n' ∧ c ≠ 't' ∧ c ≠ 'f' := by
  have other {d : Char} (notMinus : d ≠ '-') (notDigit : d.isDigit = false) : c ≠ d := by
    rintro rfl
    rcases number with sign | digit
    · exact notMinus sign
    · rw [notDigit] at digit
      cases digit
  have space := other (d := ' ') (by decide) (by decide)
  have tab := other (d := '\t') (by decide) (by decide)
  have line := other (d := '\n') (by decide) (by decide)
  have back := other (d := '\r') (by decide) (by decide)
  refine ⟨by simp [blank, space, tab, line, back],?_,?_,?_,?_,?_,?_,?_⟩
  all_goals exact other (by decide) (by decide)

/-- A text that is read as a number starts one. -/
theorem number_head {text : Text} {value : Value}
    (read : ∀ rest, Ends rest → readNumber floatRepr (text ++ rest) = some (value,rest)) :
    ∃ c more, text = c :: more ∧ (c = '-' ∨ c.isDigit = true) := by
  cases text with
  | nil => cases (read [] ends_nil : none = some (value,[]))
  | cons c more => exact ⟨c,more,rfl,readNumber_head floatRepr (read [] ends_nil)⟩

/-- The last branch of the reader. -/
theorem readValue_number {text rest : Text} {value : Value} {fuel : Nat}
    (read : ∀ rest, Ends rest → readNumber floatRepr (text ++ rest) = some (value,rest)) (ends : Ends rest) :
    readValue floatRepr (fuel + 1) (text ++ rest) = some (value,rest) := by
  have here := read rest ends
  obtain ⟨c,more,rfl,number⟩ := number_head floatRepr read
  obtain ⟨_,_,quote,bracket,brace,n,t,f⟩ := digit_solid number
  rw [List.cons_append] at here ⊢
  rw [readValue, if_neg quote, if_neg bracket, if_neg brace, if_neg n, if_neg t, if_neg f]
  exact here

variable (ascii : Bool)

theorem dumps_solid {value : Value} (canonical : Canonical floatRepr value) : Solid (dumps ascii value) := by
  have number {text : Text} {value : Value}
      (read : ∀ rest, Ends rest → readNumber floatRepr (text ++ rest) = some (value,rest)) : Solid text := by
    obtain ⟨c,more,rfl,number⟩ := number_head floatRepr read
    exact ⟨c,more,rfl,(digit_solid number).1,(digit_solid number).2.1⟩
  cases value with
  | null => exact ⟨_,_,rfl,by decide,by decide⟩
  | bool b => cases b <;> exact ⟨_,_,rfl,by decide,by decide⟩
  | int n => exact number fun _ => readNumber_intText floatRepr n
  | float text => exact number canonical
  | str s => exact ⟨_,_,rfl,by decide,by decide⟩
  | arr items => exact ⟨_,_,rfl,by decide,by decide⟩
  | obj fields => exact ⟨_,_,rfl,by decide,by decide⟩

/-! ### Objects -/

theorem dumpsFields_map (fields : List (Text × Value)) :
    dumpsFields ascii fields = fields.map fun field => (field.1,dumps ascii field.2) := by
  induction fields with
  | nil => rfl
  | cons field rest ih =>
    obtain ⟨key,value⟩ := field
    rw [dumpsFields, ih]
    rfl

/-- Fields in the order of their keys stay in it. -/
theorem sortedBy_increasing {β : Type} {fields : List (Text × β)} (increasing : (fields.map Prod.fst).Pairwise (· < ·)) :
    Ordered.sortedBy Prod.fst fields = fields := by
  rw [Ordered.sortedBy]
  apply List.Pairwise.insertionSort_eq
  exact (List.pairwise_map.mp increasing).imp fun lt => le_of_lt lt

theorem put_new {key : Text} {value : Value} {fields : List (Text × Value)} (new : key ∉ fields.map Prod.fst) :
    put key value fields = fields ++ [(key,value)] := by
  induction fields with
  | nil => rfl
  | cons field rest ih =>
    obtain ⟨k,v⟩ := field
    rw [List.map_cons, List.mem_cons, not_or] at new
    rw [put, if_neg (Ne.symm new.1), ih new.2, List.cons_append]

theorem toDict_distinct {fields : List (Text × Value)} (distinct : (fields.map Prod.fst).Nodup) : toDict fields = fields := by
  have grows : ∀ before : List (Text × Value), ((before ++ fields).map Prod.fst).Nodup →
      fields.foldl (fun kept pair => put pair.1 pair.2 kept) before = before ++ fields := by
    clear distinct
    induction fields with
    | nil => simp
    | cons field rest ih =>
      intro before distinct
      have new : field.1 ∉ before.map Prod.fst := by
        rw [List.map_append, List.nodup_append] at distinct
        intro member
        exact distinct.2.2 _ member _ (List.mem_cons_self ..) rfl
      rw [List.foldl_cons, put_new new, ih (before ++ [field]) (by simpa using distinct), List.append_assoc]
      rfl
  exact grows [] (by simpa using distinct)

/-! ### The round trip -/

/-- The text of the value is read back, wherever it stands. -/
def ReadsBack (value : Value) : Prop :=
  ∀ fuel rest, Ends rest → (dumps ascii value).length < fuel →
    readValue floatRepr fuel (dumps ascii value ++ rest) = some (value,rest)

/-- It starts with no blank either. -/
def Kept (value : Value) : Prop := ReadsBack floatRepr ascii value ∧ Solid (dumps ascii value)

variable {floatRepr ascii}

theorem readsBack_word {c : Char} {word : Text} {value : Value} (spelled : dumps ascii value = c :: word)
    (read : ∀ fuel rest, readValue floatRepr (fuel + 1) (c :: (word ++ rest)) = readWord word value (word ++ rest)) :
    ReadsBack floatRepr ascii value := by
  intro fuel rest _ enough
  obtain ⟨fuel,rfl⟩ := Nat.exists_eq_succ_of_ne_zero (Nat.ne_of_gt (Nat.zero_lt_of_lt enough))
  rw [spelled, List.cons_append, read, readWord, if_pos (by simp), List.drop_left]

theorem readsBack_number {value : Value}
    (read : ∀ rest, Ends rest → readNumber floatRepr (dumps ascii value ++ rest) = some (value,rest)) :
    ReadsBack floatRepr ascii value := by
  intro fuel rest ends enough
  obtain ⟨fuel,rfl⟩ := Nat.exists_eq_succ_of_ne_zero (Nat.ne_of_gt (Nat.zero_lt_of_lt enough))
  exact readValue_number floatRepr read ends

/-- A string after its opening quote is read back. -/
theorem readString_quote (s rest : Text) {turns : Nat} (enough : (quote ascii s).length ≤ turns + 1) :
    readString turns (s.flatMap (escapeChar ascii) ++ '"' :: rest) = some (s,rest) := by
  apply readString_escaped
  have longer := escaped_length ascii s
  rw [quote, List.length_append, List.length_cons, List.length_singleton] at enough
  omega

theorem readsBack_str (s : Text) : ReadsBack floatRepr ascii (.str s) := by
  intro fuel rest _ enough
  obtain ⟨fuel,rfl⟩ := Nat.exists_eq_succ_of_ne_zero (Nat.ne_of_gt (Nat.zero_lt_of_lt enough))
  have text : dumps ascii (.str s) ++ rest = '"' :: (s.flatMap (escapeChar ascii) ++ '"' :: rest) := by
    simp [dumps, quote]
  rw [text, readValue, if_pos rfl, readString_quote]
  · rfl
  · simp [quote]

/-- Parts separated by commas start as the first of them does. -/
theorem commas_solid {part : Text} (parts : List Text) (solid : Solid part) : Solid (commas (part :: parts)) := by
  obtain ⟨c,rest,rfl,some,other⟩ := solid
  cases parts with
  | nil => exact ⟨c,rest,rfl,some,other⟩
  | cons next more => exact ⟨c,rest ++ ',' :: commas (next :: more),rfl,some,other⟩

theorem readItems_commas {item : Value} {items : List Value} (kept : ∀ i ∈ item :: items, Kept floatRepr ascii i)
    {fuel : Nat} (rest : Text) (enough : (commas (dumpsItems ascii (item :: items))).length + 1 < fuel) :
    readItems floatRepr fuel (commas (dumpsItems ascii (item :: items)) ++ ']' :: rest) = some (item :: items,rest) := by
  induction items generalizing item fuel with
  | nil =>
    obtain ⟨fuel,rfl⟩ := Nat.exists_eq_succ_of_ne_zero (Nat.ne_of_gt (Nat.zero_lt_of_lt enough))
    have text : commas (dumpsItems ascii [item]) = dumps ascii item := rfl
    rw [text] at enough ⊢
    rw [readItems, (kept item (by simp)).1 fuel _ (ends_cons (by simp)) (by omega)]
    rfl
  | cons next more ih =>
    obtain ⟨fuel,rfl⟩ := Nat.exists_eq_succ_of_ne_zero (Nat.ne_of_gt (Nat.zero_lt_of_lt enough))
    have solid : Solid (commas (dumpsItems ascii (next :: more))) := commas_solid _ (kept next (by simp)).2
    have text : commas (dumpsItems ascii (item :: next :: more)) =
        dumps ascii item ++ ',' :: commas (dumpsItems ascii (next :: more)) := rfl
    rw [text, List.length_append, List.length_cons] at enough
    have first := (kept item (by simp)).1 fuel (',' :: (commas (dumpsItems ascii (next :: more)) ++ ']' :: rest))
      (ends_cons (by simp)) (by omega)
    have fewer : (commas (dumpsItems ascii (next :: more))).length + 1 < fuel := by omega
    have later := ih (fun i member => kept i (List.mem_cons_of_mem _ member)) fewer
    rw [text, List.append_assoc, List.cons_append, readItems, first]
    simp only [Option.bind_eq_bind, Option.bind_some, skip_solid _ (show blank ',' = false by decide), List.head?_cons,
      if_true, List.drop_succ_cons, List.drop_zero, solid.skip, later, Option.pure_def]

theorem readsBack_arr {items : List Value} (kept : ∀ i ∈ items, Kept floatRepr ascii i) :
    ReadsBack floatRepr ascii (.arr items) := by
  intro fuel rest _ enough
  obtain ⟨fuel,rfl⟩ := Nat.exists_eq_succ_of_ne_zero (Nat.ne_of_gt (Nat.zero_lt_of_lt enough))
  have text : dumps ascii (.arr items) ++ rest = '[' :: (commas (dumpsItems ascii items) ++ ']' :: rest) := by
    simp [dumps]
  have size : (dumps ascii (.arr items)).length = (commas (dumpsItems ascii items)).length + 2 := by
    simp [dumps]
  rw [size] at enough
  rw [text, readValue, if_neg (by decide), if_pos rfl]
  cases items with
  | nil => rfl
  | cons item items =>
    have solid : Solid (commas (dumpsItems ascii (item :: items))) := commas_solid _ (kept item (by simp)).2
    have fewer : (commas (dumpsItems ascii (item :: items))).length + 1 < fuel := by omega
    simp only [solid.skip, if_neg (solid.open_ _), readItems_commas kept rest fewer]
    rfl

/-- The texts of fields, separated by commas. -/
def fieldsText (ascii : Bool) (fields : List (Text × Value)) : Text :=
  commas (fields.map fun f => field ascii (f.1,dumps ascii f.2))

theorem field_quote (key text rest : Text) :
    field ascii (key,text) ++ rest = '"' :: (key.flatMap (escapeChar ascii) ++ '"' :: ':' :: (text ++ rest)) := by
  simp [field, quote]

theorem text_lt_field (ascii : Bool) (key text : Text) : text.length < (field ascii (key,text)).length := by
  have size : (field ascii (key,text)).length = (quote ascii key).length + (text.length + 1) := by
    rw [field, List.length_append, List.length_cons]
  omega

/-- The first of some fields is read, and then what follows it. -/
theorem readFields_field {f : Text × Value} (kept : Kept floatRepr ascii f.2) {fuel : Nat} {rest : Text} (ends : Ends rest)
    (enough : (dumps ascii f.2).length < fuel) :
    readFields floatRepr (fuel + 1) (field ascii (f.1,dumps ascii f.2) ++ rest) =
      if (skip rest).head? = some ',' then
        (readFields floatRepr fuel (skip ((skip rest).drop 1))).bind fun later => some (f :: later.1,later.2)
      else if (skip rest).head? = some '}' then some ([f],(skip rest).drop 1)
      else none := by
  rw [field_quote, readFields, if_pos List.head?_cons, List.drop_succ_cons, List.drop_zero, readString_quote]
  · simp only [Option.bind_eq_bind, Option.bind_some, skip_solid _ (show blank ':' = false by decide), List.head?_cons,
      if_true, List.drop_succ_cons, List.drop_zero, kept.2.skip, kept.1 fuel rest ends enough]
    rfl
  · simp [quote]

theorem readFields_commas {f : Text × Value} {fields : List (Text × Value)}
    (kept : ∀ f' ∈ f :: fields, Kept floatRepr ascii f'.2) {fuel : Nat} (rest : Text)
    (enough : (fieldsText ascii (f :: fields)).length + 1 < fuel) :
    readFields floatRepr fuel (fieldsText ascii (f :: fields) ++ '}' :: rest) = some (f :: fields,rest) := by
  induction fields generalizing f fuel with
  | nil =>
    obtain ⟨fuel,rfl⟩ := Nat.exists_eq_succ_of_ne_zero (Nat.ne_of_gt (Nat.zero_lt_of_lt enough))
    have text : fieldsText ascii [f] = field ascii (f.1,dumps ascii f.2) := rfl
    have size := text_lt_field ascii f.1 (dumps ascii f.2)
    rw [text] at enough ⊢
    rw [readFields_field (kept f (by simp)) (ends_cons (by simp)) (by omega), skip_solid _ (by decide)]
    rfl
  | cons next more ih =>
    obtain ⟨fuel,rfl⟩ := Nat.exists_eq_succ_of_ne_zero (Nat.ne_of_gt (Nat.zero_lt_of_lt enough))
    have text : fieldsText ascii (f :: next :: more) =
        field ascii (f.1,dumps ascii f.2) ++ ',' :: fieldsText ascii (next :: more) := rfl
    have size := text_lt_field ascii f.1 (dumps ascii f.2)
    have starts : Solid (fieldsText ascii (next :: more)) := commas_solid _ ⟨_,_,rfl,by decide,by decide⟩
    rw [text, List.length_append, List.length_cons] at enough
    have fewer : (fieldsText ascii (next :: more)).length + 1 < fuel := by omega
    have later := ih (fun f' member => kept f' (List.mem_cons_of_mem _ member)) fewer
    rw [text, List.append_assoc, List.cons_append, readFields_field (kept f (by simp)) (ends_cons (by simp)) (by omega),
      skip_solid _ (by decide), if_pos List.head?_cons, List.drop_succ_cons, List.drop_zero, starts.skip, later]
    rfl

theorem readsBack_obj {fields : List (Text × Value)} (ordered : (fields.map Prod.fst).Pairwise (· < ·))
    (kept : ∀ f ∈ fields, Kept floatRepr ascii f.2) : ReadsBack floatRepr ascii (.obj fields) := by
  intro fuel rest _ enough
  obtain ⟨fuel,rfl⟩ := Nat.exists_eq_succ_of_ne_zero (Nat.ne_of_gt (Nat.zero_lt_of_lt enough))
  have inOrder : (Ordered.sortedBy Prod.fst (dumpsFields ascii fields)).map (field ascii) =
      fields.map fun f => field ascii (f.1,dumps ascii f.2) := by
    rw [dumpsFields_map, sortedBy_increasing, List.map_map]
    · rfl
    · rw [List.map_map]
      exact ordered
  have text : dumps ascii (.obj fields) ++ rest = '{' :: (fieldsText ascii fields ++ '}' :: rest) := by
    simp [dumps, fieldsText, inOrder]
  have size : (dumps ascii (.obj fields)).length = (fieldsText ascii fields).length + 2 := by
    simp [dumps, fieldsText, inOrder]
  rw [size] at enough
  rw [text, readValue, if_neg (by decide), if_neg (by decide), if_pos rfl]
  cases fields with
  | nil => rfl
  | cons f fields =>
    have starts : Solid (fieldsText ascii (f :: fields)) := commas_solid _ ⟨_,_,rfl,by decide,by decide⟩
    have fewer : (fieldsText ascii (f :: fields)).length + 1 < fuel := by omega
    have quoted : (fieldsText ascii (f :: fields) ++ '}' :: rest).head? ≠ some '}' := by
      cases fields with
      | nil => simp [fieldsText, commas, field, quote]
      | cons next more => simp [fieldsText, commas, field, quote]
    have distinct : (f :: fields).map Prod.fst |>.Nodup := Ordered.increasing_nodup ordered
    simp only [starts.skip, if_neg quoted, readFields_commas kept rest fewer, Option.map_some, toDict_distinct distinct]

mutual
theorem readsBack : ∀ value : Value, Canonical floatRepr value → ReadsBack floatRepr ascii value
  | .null,_ => readsBack_word rfl fun _ _ => rfl
  | .bool true,_ => readsBack_word rfl fun _ _ => rfl
  | .bool false,_ => readsBack_word rfl fun _ _ => rfl
  | .int n,_ => readsBack_number fun _ => readNumber_intText floatRepr n
  | .float _,canonical => readsBack_number canonical
  | .str s,_ => readsBack_str s
  | .arr items,canonical => readsBack_arr (items_kept items canonical)
  | .obj fields,canonical => readsBack_obj canonical.1 (fields_kept fields canonical.2)
theorem items_kept : ∀ items : List Value, CanonicalItems floatRepr items → ∀ i ∈ items, Kept floatRepr ascii i
  | [],_ => nofun
  | item :: rest,canonical => List.forall_mem_cons.mpr
    ⟨⟨readsBack item canonical.1,dumps_solid floatRepr ascii canonical.1⟩,items_kept rest canonical.2⟩
theorem fields_kept : ∀ fields : List (Text × Value), CanonicalFields floatRepr fields →
    ∀ f ∈ fields, Kept floatRepr ascii f.2
  | [],_ => nofun
  | (_,value) :: rest,canonical => List.forall_mem_cons.mpr
    ⟨⟨readsBack value canonical.1,dumps_solid floatRepr ascii canonical.1⟩,fields_kept rest canonical.2⟩
end

/-- The canonical text of a value is read back. -/
theorem loads_dumps {value : Value} (canonical : Canonical floatRepr value) :
    loads floatRepr (dumps ascii value) = some value := by
  have solid := dumps_solid floatRepr ascii canonical
  have start : skip (dumps ascii value) = dumps ascii value := by simpa using solid.skip []
  have whole : ReadsBack floatRepr ascii value := readsBack value canonical
  have back := whole ((dumps ascii value).length + 1) [] ends_nil (Nat.lt_succ_self _)
  rw [List.append_nil] at back
  rw [loads, start, back]
  rfl

/-! ### Canonical forms -/

mutual
/-- The fields of objects in the order of their keys. -/
def Value.canonical : Value → Value
  | .arr items => .arr (canonicalItems items)
  | .obj fields => .obj (Ordered.sortedBy Prod.fst (canonicalFields fields))
  | value => value
def canonicalItems : List Value → List Value
  | [] => []
  | item :: rest => item.canonical :: canonicalItems rest
def canonicalFields : List (Text × Value) → List (Text × Value)
  | [] => []
  | (key,value) :: rest => (key,value.canonical) :: canonicalFields rest
end

mutual
/-- The keys of each object are distinct, and floats are kept as they are printed. -/
def Plain (floatRepr : Text → Text) : Value → Prop
  | .float text => FloatToken floatRepr text
  | .arr items => PlainItems floatRepr items
  | .obj fields => (fields.map Prod.fst).Nodup ∧ PlainFields floatRepr fields
  | .null | .bool _ | .int _ | .str _ => True
def PlainItems (floatRepr : Text → Text) : List Value → Prop
  | [] => True
  | item :: rest => Plain floatRepr item ∧ PlainItems floatRepr rest
def PlainFields (floatRepr : Text → Text) : List (Text × Value) → Prop
  | [] => True
  | (_,value) :: rest => Plain floatRepr value ∧ PlainFields floatRepr rest
end

theorem canonicalFields_map (fields : List (Text × Value)) :
    canonicalFields fields = fields.map fun field => (field.1,field.2.canonical) := by
  induction fields with
  | nil => rfl
  | cons field rest ih =>
    obtain ⟨key,value⟩ := field
    rw [canonicalFields, ih]
    rfl

theorem canonicalFields_keys (fields : List (Text × Value)) : (canonicalFields fields).map Prod.fst = fields.map Prod.fst := by
  rw [canonicalFields_map, List.map_map]
  rfl

theorem dumpsFields_keys (fields : List (Text × Value)) : (dumpsFields ascii fields).map Prod.fst = fields.map Prod.fst := by
  rw [dumpsFields_map, List.map_map]
  rfl

/-- Fields with distinct keys are put in the strict order of their keys. -/
theorem sortedBy_keys {β : Type} {fields : List (Text × β)} (distinct : (fields.map Prod.fst).Nodup) :
    ((Ordered.sortedBy Prod.fst fields).map Prod.fst).Pairwise (· < ·) := by
  have sorted : (Ordered.sortedBy Prod.fst fields).Pairwise fun a b => a.1 ≤ b.1 := List.pairwise_insertionSort _ _
  have distinct' : ((Ordered.sortedBy Prod.fst fields).map Prod.fst).Nodup :=
    ((Ordered.sortedBy_perm Prod.fst fields).map Prod.fst).nodup_iff.mpr distinct
  exact (List.pairwise_map.mpr sorted).imp₂ (fun _ _ le ne => lt_of_le_of_ne le ne) distinct'

/-- The order of the keys determines the fields. -/
theorem increasing_perm {β : Type} {first second : List (Text × β)} (perm : first.Perm second)
    (ordered : (first.map Prod.fst).Pairwise (· < ·)) (ordered' : (second.map Prod.fst).Pairwise (· < ·)) :
    first = second :=
  perm.eq_of_pairwise (fun _ _ _ _ lt gt => absurd lt (lt_asymm gt)) (List.pairwise_map.mp ordered)
    (List.pairwise_map.mp ordered')

mutual
theorem canonical_dumps : ∀ value : Value, Plain floatRepr value → dumps ascii value.canonical = dumps ascii value
  | .null,_ | .bool _,_ | .int _,_ | .float _,_ | .str _,_ => rfl
  | .arr items,plain => by rw [Value.canonical, dumps, dumps, canonicalItems_dumps items plain]
  | .obj fields,⟨distinct,plain⟩ => by
    have keys : ((canonicalFields fields).map Prod.fst).Nodup := by
      rw [canonicalFields_keys]
      exact distinct
    have ordered := sortedBy_keys keys
    have same : Ordered.sortedBy Prod.fst (dumpsFields ascii (Ordered.sortedBy Prod.fst (canonicalFields fields))) =
        Ordered.sortedBy Prod.fst (dumpsFields ascii fields) := by
      rw [sortedBy_increasing (by rw [dumpsFields_keys]; exact ordered)]
      apply increasing_perm
      · apply List.Perm.trans _ (Ordered.sortedBy_perm Prod.fst _).symm
        rw [← canonicalFields_dumps fields plain, dumpsFields_map, dumpsFields_map]
        exact (Ordered.sortedBy_perm Prod.fst _).map _
      · rw [dumpsFields_keys]
        exact ordered
      · apply sortedBy_keys
        rw [dumpsFields_keys]
        exact distinct
    rw [Value.canonical, dumps, dumps, same]
theorem canonicalItems_dumps : ∀ items : List Value, PlainItems floatRepr items →
    dumpsItems ascii (canonicalItems items) = dumpsItems ascii items
  | [],_ => rfl
  | item :: rest,plain => by
    rw [canonicalItems, dumpsItems, dumpsItems, canonical_dumps item plain.1, canonicalItems_dumps rest plain.2]
theorem canonicalFields_dumps : ∀ fields : List (Text × Value), PlainFields floatRepr fields →
    dumpsFields ascii (canonicalFields fields) = dumpsFields ascii fields
  | [],_ => rfl
  | (key,value) :: rest,plain => by
    rw [canonicalFields, dumpsFields, dumpsFields, canonical_dumps value plain.1, canonicalFields_dumps rest plain.2]
end

theorem canonicalFields_mem {fields : List (Text × Value)} (each : ∀ f ∈ fields, Canonical floatRepr f.2) :
    CanonicalFields floatRepr fields := by
  induction fields with
  | nil => trivial
  | cons f rest ih =>
    obtain ⟨key,value⟩ := f
    exact ⟨each _ (List.mem_cons_self ..),ih fun f member => each f (List.mem_cons_of_mem _ member)⟩

mutual
theorem canonical_canonical : ∀ value : Value, Plain floatRepr value → Canonical floatRepr value.canonical
  | .null,_ | .bool _,_ | .int _,_ | .str _,_ => trivial
  | .float _,plain => plain
  | .arr items,plain => canonicalItems_canonical items plain
  | .obj fields,⟨distinct,plain⟩ => by
    refine ⟨sortedBy_keys (by rw [canonicalFields_keys]; exact distinct),?_⟩
    apply canonicalFields_mem
    intro f member
    exact canonicalFields_canonical fields plain f (Ordered.mem_sortedBy.mp member)
theorem canonicalItems_canonical : ∀ items : List Value, PlainItems floatRepr items →
    CanonicalItems floatRepr (canonicalItems items)
  | [],_ => trivial
  | item :: rest,plain => ⟨canonical_canonical item plain.1,canonicalItems_canonical rest plain.2⟩
theorem canonicalFields_canonical : ∀ fields : List (Text × Value), PlainFields floatRepr fields →
    ∀ f ∈ canonicalFields fields, Canonical floatRepr f.2
  | [],_ => nofun
  | (_,value) :: rest,plain => List.forall_mem_cons.mpr
    ⟨canonical_canonical value plain.1,canonicalFields_canonical rest plain.2⟩
end

/-- What is read back from the text of a value, whatever the order of its fields. -/
theorem loads_plain {value : Value} (plain : Plain floatRepr value) :
    loads floatRepr (dumps ascii value) = some value.canonical := by
  rw [← canonical_dumps value plain]
  exact loads_dumps (canonical_canonical value plain)

/-- Values with the same text are equal. -/
theorem dumps_injective {first second : Value} (canonical : Canonical floatRepr first)
    (canonical' : Canonical floatRepr second) (same : dumps ascii first = dumps ascii second) : first = second := by
  have back : loads floatRepr (dumps ascii first) = some first := loads_dumps canonical
  rw [same, loads_dumps canonical'] at back
  exact (Option.some.inj back).symm

/-- Texts with the same encoding are equal. -/
theorem utf8_injective {first second : Text} (same : utf8 first = utf8 second) : first = second := by
  have bytes : first.utf8Encode = second.utf8Encode := congrArg List.toByteArray same
  have decoded : some first.toArray = some second.toArray := by
    rw [← List.utf8Decode?_utf8Encode, bytes, List.utf8Decode?_utf8Encode]
  exact List.toArray_inj (Option.some.inj decoded)

end DocGuard.Json
