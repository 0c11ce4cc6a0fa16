import DocGuard.Ordered

/-!
JSON values and their canonical text, as `json.dumps` writes it with sorted keys
and without blanks. The size of a value is the number of UTF-8 bytes of that
text; it is computed from the sizes of the parts, whatever the order in which an
object lists its fields.
-/
namespace DocGuard.Json
open DocGuard.Ordered

/-- A JSON value. A finite float is kept as the text `float.__repr__` gives it. -/
inductive Value where
  | null
  | bool (b : Bool)
  | int (n : Int)
  | float (text : Text)
  | str (s : Text)
  | arr (items : List Value)
  | obj (fields : List (Text × Value))

/-! ### Equality -/

mutual
def Value.same : Value → Value → Bool
  | .null,.null => true
  | .bool a,.bool b => a == b
  | .int a,.int b => a == b
  | .float a,.float b => a == b
  | .str a,.str b => a == b
  | .arr a,.arr b => sameItems a b
  | .obj a,.obj b => sameFields a b
  | _,_ => false
def sameItems : List Value → List Value → Bool
  | [],[] => true
  | a :: as,b :: bs => a.same b && sameItems as bs
  | _,_ => false
def sameFields : List (Text × Value) → List (Text × Value) → Bool
  | [],[] => true
  | (k,a) :: as,(l,b) :: bs => k == l && a.same b && sameFields as bs
  | _,_ => false
end

mutual
theorem Value.same_iff : ∀ a b : Value, a.same b = true ↔ a = b
  | .arr a,.arr b => by simpa [Value.same] using sameItems_iff a b
  | .obj a,.obj b => by simpa [Value.same] using sameFields_iff a b
  | .null,b | .bool _,b | .int _,b | .float _,b | .str _,b => by cases b <;> simp [Value.same]
  | .arr _,.null | .arr _,.bool _ | .arr _,.int _ | .arr _,.float _ | .arr _,.str _ | .arr _,.obj _ => by
    simp [Value.same]
  | .obj _,.null | .obj _,.bool _ | .obj _,.int _ | .obj _,.float _ | .obj _,.str _ | .obj _,.arr _ => by
    simp [Value.same]
theorem sameItems_iff : ∀ a b : List Value, sameItems a b = true ↔ a = b
  | [],b => by cases b <;> simp [sameItems]
  | a :: as,[] => by simp [sameItems]
  | a :: as,b :: bs => by simp [sameItems,Value.same_iff a b,sameItems_iff as bs]
theorem sameFields_iff : ∀ a b : List (Text × Value), sameFields a b = true ↔ a = b
  | [],b => by cases b <;> simp [sameFields]
  | a :: as,[] => by simp [sameFields]
  | (k,a) :: as,(l,b) :: bs => by simp [sameFields,Value.same_iff a b,sameFields_iff as bs]
end

instance : DecidableEq Value := fun a b => decidable_of_iff _ (Value.same_iff a b)

/-! ### Text -/

/-- The four hexadecimal digits of a code unit, lowercase. -/
def hex4 (n : Nat) : Text :=
  [Nat.digitChar (n / 4096 % 16),Nat.digitChar (n / 256 % 16),Nat.digitChar (n / 16 % 16),Nat.digitChar (n % 16)]

/-- The escape of a code point with no short form: one unit, or a surrogate pair. -/
def unicodeEscape (n : Nat) : Text :=
  if n < 0x10000 then '\\' :: 'u' :: hex4 n
  else '\\' :: 'u' :: hex4 (0xd800 + (n - 0x10000) / 0x400) ++ '\\' :: 'u' :: hex4 (0xdc00 + (n - 0x10000) % 0x400)

/-- One character of a string; `ascii` is `ensure_ascii`. -/
def escapeChar (ascii : Bool) (c : Char) : Text :=
  if c = '"' then ['\\','"'] else
  if c = '\\' then ['\\','\\'] else
  if c = '\n' then ['\\','n'] else
  if c = '\r' then ['\\','r'] else
  if c = '\t' then ['\\','t'] else
  if c.toNat = 8 then ['\\','b'] else
  if c.toNat = 12 then ['\\','f'] else
  if c.toNat < 32 then unicodeEscape c.toNat else
  if ascii && 126 < c.toNat then unicodeEscape c.toNat else [c]

def quote (ascii : Bool) (s : Text) : Text := '"' :: (s.flatMap (escapeChar ascii)) ++ ['"']

def intText (n : Int) : Text :=
  if n < 0 then '-' :: Nat.toDigits 10 n.natAbs else Nat.toDigits 10 n.natAbs

/-- Parts separated by commas. -/
def commas : List Text → Text
  | [] => []
  | [part] => part
  | part :: next :: rest => part ++ ',' :: commas (next :: rest)

def field (ascii : Bool) (f : Text × Text) : Text := quote ascii f.1 ++ ':' :: f.2

mutual
/-- `json.dumps(value, separators=(",", ":"), sort_keys=True, ensure_ascii=ascii)` -/
def dumps (ascii : Bool) : Value → Text
  | .null => ['n','u','l','l']
  | .bool true => ['t','r','u','e']
  | .bool false => ['f','a','l','s','e']
  | .int n => intText n
  | .float text => text
  | .str s => quote ascii s
  | .arr items => '[' :: commas (dumpsItems ascii items) ++ [']']
  | .obj fields => '{' :: commas ((sortedBy Prod.fst (dumpsFields ascii fields)).map (field ascii)) ++ ['}']
def dumpsItems (ascii : Bool) : List Value → List Text
  | [] => []
  | item :: rest => dumps ascii item :: dumpsItems ascii rest
def dumpsFields (ascii : Bool) : List (Text × Value) → List (Text × Text)
  | [] => []
  | (key,value) :: rest => (key,dumps ascii value) :: dumpsFields ascii rest
end

/-- The bytes of a text in UTF-8. -/
def utf8 (text : Text) : List UInt8 := text.flatMap String.utf8EncodeChar

/-- The number of bytes of the canonical text, with characters left as they are. -/
def size (value : Value) : Nat := (utf8 (dumps false value)).length

end DocGuard.Json
