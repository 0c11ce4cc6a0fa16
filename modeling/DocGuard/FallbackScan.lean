import DocGuard.Text

/-!
The lexical fallback scan of a PDF file: hexadecimal escapes are decoded in one pass
over the first bytes, and each token of a fixed vocabulary is counted after a slash.
A slash is no hexadecimal digit, so that no escape reaches over the slash of a name,
and the escapes of a spelling end where the spelling ends: nothing around a spelling
takes a part of it away.
-/
namespace DocGuard.FallbackScan

abbrev Bytes := List UInt8

/-! ### The scan -/

/-- `#` and `/` in ASCII -/
def sign : UInt8 := 35
def slash : UInt8 := 47

/-- The value of a hexadecimal digit in either case. -/
def hexValue (byte : UInt8) : Option Nat :=
  let n := byte.toNat
  if 48 ≤ n ∧ n ≤ 57 then some (n - 48)
  else if 65 ≤ n ∧ n ≤ 70 then some (n - 55)
  else if 97 ≤ n ∧ n ≤ 102 then some (n - 87)
  else none

/-- `bytes([int(match.group(1), 16)])`, if both are hexadecimal digits -/
def escaped (first second : UInt8) : Option UInt8 :=
  match hexValue first,hexValue second with
  | some high,some low => some (UInt8.ofNat (16 * high + low))
  | _,_ => none

/-- `_decode_name_hex_escapes` -/
def decodeNameHexEscapes : Bytes → Bytes
  | [] => []
  | [byte] => [byte]
  | [byte,second] => [byte,second]
  | byte :: first :: second :: rest =>
    match if byte = sign then escaped first second else none with
    | some decoded => decoded :: decodeNameHexEscapes rest
    | none => byte :: decodeNameHexEscapes (first :: second :: rest)

/-- `data.count(needle)`: occurrences from left to right, none of which begins inside the one before; `skip` bytes are left
    of the last one. -/
def count (needle : Bytes) : Nat → Bytes → Nat
  | _,[] => 0
  | skip+1,_ :: rest => count needle skip rest
  | 0,byte :: rest =>
    if needle <+: byte :: rest then count needle (needle.length - 1) rest + 1 else count needle 0 rest

def FALLBACK_INDICATOR_TOKENS : List Text :=
  [lit "JavaScript",lit "JS",lit "OpenAction",lit "AA",lit "AcroForm",lit "XFA",lit "Launch",lit "EmbeddedFile",
   lit "EmbeddedFiles",lit "ImportData",lit "SubmitForm",lit "GoToE",lit "URI"]

structure PdfFallbackLimits where
  maxScanBytes : Nat := 8 * 1024 * 1024
  maxHitCount : Nat := 9999
  positive : 0 < maxScanBytes ∧ 0 < maxHitCount := by decide

structure PdfFallbackScan where
  indicatorCounts : List (Text × Nat) := []
  truncated : Bool := false

/-- `token.encode("ascii")` -/
def encode (token : Text) : Bytes := token.map fun c => UInt8.ofNat c.toNat

def needle (token : Text) : Bytes := slash :: encode token

/-- `counts[token]`, if the token is found at all -/
def hits (limits : PdfFallbackLimits) (decoded : Bytes) (token : Text) : Option (Text × Nat) :=
  let hits := count (needle token) 0 decoded
  if hits = 0 then none else some (token,min hits limits.maxHitCount)

def scanForFallbackIndicators (rawBytes : Bytes) (limits : PdfFallbackLimits) : PdfFallbackScan :=
  let decoded := decodeNameHexEscapes (rawBytes.take limits.maxScanBytes)
  { indicatorCounts := FALLBACK_INDICATOR_TOKENS.filterMap (hits limits decoded)
    truncated := decide (limits.maxScanBytes < rawBytes.length) }

/-! ### Decoding -/

/-- A token spelled with escapes, in either case, for any of its characters. -/
inductive Spells : Text → Bytes → Prop where
  | nil : Spells [] []
  | plain {c : Char} {token : Text} {spelled : Bytes} : Spells token spelled →
      Spells (c :: token) (UInt8.ofNat c.toNat :: spelled)
  | escape {c : Char} {token : Text} {first second : UInt8} {spelled : Bytes} :
      escaped first second = some (UInt8.ofNat c.toNat) → Spells token spelled →
      Spells (c :: token) (sign :: first :: second :: spelled)

theorem decode_cons {byte : UInt8} {rest : Bytes}
    (none : byte = sign → ∀ first second more, rest = first :: second :: more → escaped first second = none) :
    decodeNameHexEscapes (byte :: rest) = byte :: decodeNameHexEscapes rest := by
  match rest with
  | [] => rfl
  | [_] => rfl
  | first :: second :: more =>
    have unescaped : (if byte = sign then escaped first second else Option.none) = Option.none := by
      split
      · rename_i same
        exact none same first second more rfl
      · rfl
    rw [decodeNameHexEscapes, unescaped]

theorem decode_escape {first second decoded : UInt8} (rest : Bytes) (escape : escaped first second = some decoded) :
    decodeNameHexEscapes (sign :: first :: second :: rest) = decoded :: decodeNameHexEscapes rest := by
  rw [decodeNameHexEscapes, if_pos rfl, escape]

theorem escaped_slash (byte : UInt8) : escaped slash byte = none ∧ escaped byte slash = none := by
  have none : hexValue slash = Option.none := by decide
  constructor
  · simp [escaped, none]
  · unfold escaped
    rw [none]
    split <;> simp_all

/-- No escape before a slash reaches over it. -/
theorem decode_slash (before after : Bytes) : decodeNameHexEscapes (before ++ slash :: after) =
    decodeNameHexEscapes before ++ slash :: decodeNameHexEscapes after := by
  have here (rest : Bytes) : decodeNameHexEscapes (slash :: rest) = slash :: decodeNameHexEscapes rest :=
    decode_cons fun same => absurd same (by decide)
  induction before using decodeNameHexEscapes.induct with
  | case1 => exact here after
  | case2 byte =>
    have next : decodeNameHexEscapes (byte :: slash :: after) = byte :: decodeNameHexEscapes (slash :: after) := by
      refine decode_cons fun _ first second more split_ => ?_
      cases split_
      exact (escaped_slash _).1
    show decodeNameHexEscapes (byte :: slash :: after) = byte :: slash :: decodeNameHexEscapes after
    rw [next, here]
  | case3 byte second =>
    have next : decodeNameHexEscapes (byte :: second :: slash :: after) =
        byte :: decodeNameHexEscapes (second :: slash :: after) := by
      refine decode_cons fun _ first second more split_ => ?_
      cases split_
      exact (escaped_slash _).2
    have later : decodeNameHexEscapes (second :: slash :: after) = second :: decodeNameHexEscapes (slash :: after) := by
      refine decode_cons fun _ first second more split_ => ?_
      cases split_
      exact (escaped_slash _).1
    show decodeNameHexEscapes (byte :: second :: slash :: after) = byte :: second :: slash :: decodeNameHexEscapes after
    rw [next, later, here]
  | case4 byte first second rest decoded escape ih =>
    simp only [List.cons_append, decodeNameHexEscapes, escape, ih]
  | case5 byte first second rest unescaped ih =>
    simp only [List.cons_append] at ih
    simp only [List.cons_append, decodeNameHexEscapes, unescaped, ih]

theorem decode_spelled {token : Text} {spelled : Bytes} (spells : Spells token spelled) (after : Bytes)
    (plain : sign ∉ encode token) : decodeNameHexEscapes (spelled ++ after) = encode token ++ decodeNameHexEscapes after := by
  induction spells with
  | nil => rfl
  | @plain c token spelled _ ih =>
    rw [encode, List.map_cons, List.mem_cons, not_or] at plain
    rw [List.cons_append, decode_cons fun same => absurd same.symm plain.1, ih plain.2]
    rfl
  | @escape c token high low spelled found _ ih =>
    rw [encode, List.map_cons, List.mem_cons, not_or] at plain
    rw [List.cons_append, List.cons_append, List.cons_append, decode_escape _ found, ih plain.2]
    rfl

/-- Bytes without a number sign are left as they are. -/
theorem decode_unescaped {data : Bytes} (plain : sign ∉ data) : decodeNameHexEscapes data = data := by
  induction data with
  | nil => rfl
  | cons byte rest ih =>
    rw [List.mem_cons, not_or] at plain
    rw [decode_cons fun same => absurd same.symm plain.1, ih plain.2]

/-! ### Counting -/

/-- The positions at which the needle stands in the data. -/
def occurrences (needle data : Bytes) : Nat := data.tails.countP (needle <+: ·)

theorem occurrences_cons (needle : Bytes) (byte : UInt8) (rest : Bytes) :
    occurrences needle (byte :: rest) = occurrences needle rest + if needle <+: byte :: rest then 1 else 0 := by
  simp [occurrences, List.tails, List.countP_cons]

/-- Where its first byte does not stand, no needle begins. -/
theorem occurrences_skip {first : UInt8} {token data : Bytes} (absent : first ∉ data) (rest : Bytes) :
    occurrences (first :: token) (data ++ rest) = occurrences (first :: token) rest := by
  induction data with
  | nil => rfl
  | cons byte data ih =>
    rw [List.mem_cons, not_or] at absent
    have elsewhere : ¬ first :: token <+: byte :: (data ++ rest) := by
      rw [List.cons_prefix_cons]
      exact fun both => absent.1 both.1
    rw [List.cons_append, occurrences_cons, if_neg elsewhere, ih absent.2, Nat.add_zero]

theorem count_skip (needle data rest : Bytes) : count needle data.length (data ++ rest) = count needle 0 rest := by
  induction data with
  | nil => rfl
  | cons byte data ih => exact ih

/-- A needle whose first byte stands nowhere else in it is counted wherever it stands. -/
theorem count_eq {first : UInt8} {token : Bytes} (absent : first ∉ token) (data : Bytes) :
    count (first :: token) 0 data = occurrences (first :: token) data := by
  induction length : data.length using Nat.strong_induction_on generalizing data with
  | _ n ih =>
    cases data with
    | nil => simp [count, occurrences]
    | cons byte rest =>
      subst length
      by_cases found : first :: token <+: byte :: rest
      · obtain ⟨later,same⟩ := found
        have split_ : rest = token ++ later := by
          cases same
          rfl
        have shorter : later.length < (byte :: rest).length := by
          rw [split_, List.length_cons, List.length_append]
          omega
        have skipped : count (first :: token) ((first :: token).length - 1) rest = count (first :: token) 0 later := by
          rw [split_]
          exact count_skip _ _ _
        rw [count, if_pos ⟨later,same⟩, occurrences_cons, if_pos ⟨later,same⟩, skipped, ih _ shorter later rfl, split_,
          occurrences_skip absent]
      · rw [count, if_neg found, occurrences_cons, if_neg found, ih _ (Nat.lt_succ_self _) rest rfl, Nat.add_zero]

theorem occurrences_pos (needle before after : Bytes) :
    0 < occurrences needle (before ++ needle ++ after) := by
  refine List.countP_pos_iff.mpr ⟨needle ++ after,?_,?_⟩
  · rw [List.mem_tails, List.append_assoc]
    exact List.suffix_append _ _
  · exact decide_eq_true (List.prefix_append _ _)

/-! ### The vocabulary -/

theorem tokens_plain : FALLBACK_INDICATOR_TOKENS.Nodup ∧
    ∀ token ∈ FALLBACK_INDICATOR_TOKENS, sign ∉ encode token ∧ slash ∉ encode token := by
  decide

theorem hits_key {limits : PdfFallbackLimits} {decoded : Bytes} {token : Text} {entry : Text × Nat}
    (hit : hits limits decoded token = some entry) : entry.1 = token := by
  unfold hits at hit
  dsimp only at hit
  split at hit
  · cases hit
  · cases hit
    rfl

/-- A token is reported with its number of hits, up to the limit. -/
theorem scan_lookup {limits : PdfFallbackLimits} {rawBytes : Bytes} {token : Text}
    (member : token ∈ FALLBACK_INDICATOR_TOKENS) : (scanForFallbackIndicators rawBytes limits).indicatorCounts.lookup token =
      let found := occurrences (needle token) (decodeNameHexEscapes (rawBytes.take limits.maxScanBytes))
      if found = 0 then none else some (min found limits.maxHitCount) := by
  have counted := count_eq (tokens_plain.2 token member).2 (decodeNameHexEscapes (rawBytes.take limits.maxScanBytes))
  have distinct := tokens_plain.1
  dsimp only [scanForFallbackIndicators]
  generalize decodeNameHexEscapes (rawBytes.take limits.maxScanBytes) = decoded at counted ⊢
  rw [needle, ← counted]
  clear counted
  revert member distinct
  generalize FALLBACK_INDICATOR_TOKENS = tokens
  intro member distinct
  induction tokens with
  | nil => cases member
  | cons other rest ih =>
    obtain ⟨absent,distinct⟩ := List.nodup_cons.mp distinct
    rcases List.mem_cons.mp member with rfl | later
    · have others : (rest.filterMap (hits limits decoded)).lookup token = none := by
        refine List.lookup_eq_none_iff.mpr fun entry inside => ?_
        obtain ⟨other,here,given⟩ := List.mem_filterMap.mp inside
        rw [hits_key given]
        exact bne_iff_ne.mpr fun equal => absent (equal ▸ here)
      rw [List.filterMap_cons]
      unfold hits
      dsimp only
      by_cases zero : count (needle token) 0 decoded = 0
      · rw [if_pos zero, if_pos (show count (slash :: encode token) 0 decoded = 0 from zero)]
        exact others
      · rw [if_neg zero, if_neg (show count (slash :: encode token) 0 decoded ≠ 0 from zero)]
        exact List.lookup_cons_self
    · have apart : (token == other) = false := beq_eq_false_iff_ne.mpr fun same => absent (same ▸ later)
      rw [List.filterMap_cons]
      split
      · exact ih later distinct
      · rename_i entry given
        obtain ⟨key,n⟩ := entry
        have same : key = other := hits_key given
        rw [same, List.lookup_cons, apart]
        exact ih later distinct

/-- A token spelled in any way after a slash is reported, wherever it stands in the bytes that are scanned; without number
    signs, each token is reported as often as it stands there, up to the limit. -/
theorem escapes_hide_nothing (limits : PdfFallbackLimits) {token : Text} (member : token ∈ FALLBACK_INDICATOR_TOKENS) :
    (∀ before spelled after, Spells token spelled → before.length + 1 + spelled.length ≤ limits.maxScanBytes →
      ∃ n, (scanForFallbackIndicators (before ++ slash :: spelled ++ after) limits).indicatorCounts.lookup token = some n ∧
        1 ≤ n ∧ n ≤ limits.maxHitCount) ∧
    ∀ rawBytes, sign ∉ rawBytes.take limits.maxScanBytes →
      ((scanForFallbackIndicators rawBytes limits).indicatorCounts.lookup token).getD 0 =
        min (occurrences (needle token) (rawBytes.take limits.maxScanBytes)) limits.maxHitCount := by
  constructor
  · intro before spelled after spells within
    have window : (before ++ slash :: spelled ++ after).take limits.maxScanBytes =
        before ++ slash :: (spelled ++ after.take (limits.maxScanBytes - (before.length + 1 + spelled.length))) := by
      have length : (before ++ slash :: spelled).length = before.length + 1 + spelled.length := by
        rw [List.length_append, List.length_cons]
        omega
      rw [List.take_append, length, List.take_of_length_le (by omega), List.append_assoc, List.cons_append]
    have decoded := decode_slash before (spelled ++ after.take (limits.maxScanBytes - (before.length + 1 + spelled.length)))
    rw [decode_spelled spells _ (tokens_plain.2 token member).1, ← window] at decoded
    have found : 0 < occurrences (needle token)
        (decodeNameHexEscapes ((before ++ slash :: spelled ++ after).take limits.maxScanBytes)) := by
      rw [decoded, ← List.cons_append, ← List.append_assoc]
      exact occurrences_pos _ _ _
    have positive := limits.positive.2
    rw [scan_lookup member]
    refine ⟨_,if_neg (by omega),?_,?_⟩
    · omega
    · exact Nat.min_le_right _ _
  · intro rawBytes plain
    rw [scan_lookup member, decode_unescaped plain]
    dsimp only
    split
    · rename_i zero
      rw [zero, Option.getD_none, Nat.zero_min]
    · rfl

/-- `#2/#4aS#` hides nothing. -/
theorem escapes_hide_nothing_js : lit "JS" ∈ FALLBACK_INDICATOR_TOKENS ∧
    ∃ n, (scanForFallbackIndicators ([35,50] ++ slash :: [35,52,97,83] ++ [35]) {}).indicatorCounts.lookup (lit "JS") =
      some n ∧ 1 ≤ n ∧ n ≤ 9999 := by
  have member : lit "JS" ∈ FALLBACK_INDICATOR_TOKENS := by decide
  have spells : Spells (lit "JS") [35,52,97,83] := .escape (by decide) (.plain .nil)
  exact ⟨member,(escapes_hide_nothing {} member).1 _ _ _ spells (by decide)⟩

end DocGuard.FallbackScan
