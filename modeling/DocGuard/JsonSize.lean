import DocGuard.Json

/-!
The size of a JSON text from the sizes of its parts: what an array or an object
takes is the sum over its items, each with the comma or the bracket after it.
-/
namespace DocGuard.Json
open DocGuard.Ordered

/-- The bytes of a text in UTF-8, counted. -/
def bytes (text : Text) : Nat := (text.map Char.utf8Size).sum

theorem length_utf8 (text : Text) : (utf8 text).length = bytes text := by
  rw [utf8, List.length_flatMap, bytes]
  exact congrArg List.sum (List.map_congr_left fun c _ => String.length_utf8EncodeChar c)

@[simp] theorem bytes_nil : bytes [] = 0 := rfl

@[simp] theorem bytes_cons (c : Char) (text : Text) : bytes (c :: text) = c.utf8Size + bytes text := by
  simp [bytes]

@[simp] theorem bytes_append (first second : Text) : bytes (first ++ second) = bytes first + bytes second := by
  simp [bytes]

theorem bytes_ascii {text : Text} (ascii : ∀ c ∈ text, c.toNat < 128) : bytes text = text.length := by
  induction text with
  | nil => rfl
  | cons c rest ih =>
    have one : c.utf8Size = 1 := Char.utf8Size_eq_one_iff.mpr (by
      have := ascii c List.mem_cons_self
      exact UInt32.le_iff_toNat_le.mpr (by simpa using Nat.le_of_lt_succ this))
    rw [bytes_cons, one, ih fun c member => ascii c (List.mem_cons_of_mem _ member), List.length_cons, Nat.add_comm]

theorem size_eq (value : Value) : size value = bytes (dumps false value) := length_utf8 _

/-- Parts with commas between them take one byte less than parts with a comma after each. -/
theorem bytes_commas {parts : List Text} (some : parts ≠ []) :
    bytes (commas parts) + 1 = (parts.map fun part => bytes part + 1).sum := by
  induction parts with
  | nil => exact absurd rfl some
  | cons part rest ih =>
    cases rest with
    | nil => simp [commas]
    | cons next rest =>
      have comma : (',').utf8Size = 1 := by decide
      have later := ih (List.cons_ne_nil _ _)
      rw [commas, bytes_append, bytes_cons, comma, List.map_cons, List.sum_cons, ← later]
      omega

/-- Brackets around parts with commas between them. -/
theorem bytes_commas_around (parts : List Text) :
    bytes (commas parts) + 2 = 1 + max 1 ((parts.map fun part => bytes part + 1).sum) := by
  by_cases some : parts = []
  · subst some
    rfl
  · have total := bytes_commas some
    omega

theorem dumpsItems_eq (ascii : Bool) (items : List Value) : dumpsItems ascii items = items.map (dumps ascii) := by
  induction items with
  | nil => rfl
  | cons item rest ih => rw [dumpsItems, ih, List.map_cons]

theorem dumpsFields_eq (ascii : Bool) (fields : List (Text × Value)) :
    dumpsFields ascii fields = fields.map fun entry => (entry.1,dumps ascii entry.2) := by
  induction fields with
  | nil => rfl
  | cons entry rest ih =>
    obtain ⟨key,value⟩ := entry
    rw [dumpsFields, ih, List.map_cons]

theorem size_arr (items : List Value) : size (.arr items) = 1 + max 1 ((items.map fun item => size item + 1).sum) := by
  have around := bytes_commas_around (items.map (dumps false))
  rw [List.map_map] at around
  have same : (items.map fun item => size item + 1) = items.map ((fun part => bytes part + 1) ∘ dumps false) :=
    List.map_congr_left fun item _ => by rw [size_eq]; rfl
  have opening : ('[').utf8Size = 1 := by decide
  have closing : (']').utf8Size = 1 := by decide
  rw [size_eq, dumps, dumpsItems_eq, same, ← around]
  simp only [bytes_append, bytes_cons, bytes_nil, opening, closing]
  omega

/-- A field takes its key, a colon, its value, and the comma or the bracket after it. -/
theorem size_obj (fields : List (Text × Value)) :
    size (.obj fields) = 1 + max 1 ((fields.map fun entry => size (.str entry.1) + size entry.2 + 2).sum) := by
  have around := bytes_commas_around ((sortedBy Prod.fst (dumpsFields false fields)).map (field false))
  rw [List.map_map] at around
  have perm := (sortedBy_perm Prod.fst (dumpsFields false fields)).map ((fun part => bytes part + 1) ∘ field false)
  rw [perm.sum_eq, dumpsFields_eq, List.map_map] at around
  have colon : (':').utf8Size = 1 := by decide
  have same : (fields.map fun entry => size (.str entry.1) + size entry.2 + 2) = fields.map
      (((fun part => bytes part + 1) ∘ field false) ∘ fun entry => (entry.1,dumps false entry.2)) := by
    refine List.map_congr_left fun entry _ => ?_
    simp only [Function.comp_apply, field, bytes_append, bytes_cons, colon, size_eq, dumps]
    omega
  have opening : ('\x7b').utf8Size = 1 := by decide
  have closing : ('\x7d').utf8Size = 1 := by decide
  rw [size_eq, dumps, dumpsFields_eq, same, ← around]
  simp only [bytes_append, bytes_cons, bytes_nil, opening, closing]
  omega

theorem size_str (s : Text) : size (.str s) = 2 + bytes (s.flatMap (escapeChar false)) := by
  have mark : ('"').utf8Size = 1 := by decide
  rw [size_eq, dumps, quote]
  simp only [bytes_append, bytes_cons, bytes_nil, mark]
  omega

/-- A character that is written as it is, in one byte. -/
def plainChar (c : Char) : Bool := decide (32 ≤ c.toNat ∧ c.toNat < 128) && c != '"' && c != '\\'

theorem escapeChar_plain {c : Char} (plain : plainChar c) : escapeChar false c = [c] ∧ c.utf8Size = 1 := by
  simp only [plainChar, Bool.and_eq_true, decide_eq_true_eq, bne_iff_ne] at plain
  obtain ⟨⟨range,quote_⟩,slash⟩ := plain
  constructor
  · have low {d : Char} (below : d.toNat < 32) : c ≠ d := by
      rintro rfl
      omega
    unfold escapeChar
    rw [if_neg quote_, if_neg slash, if_neg (low (by decide)), if_neg (low (by decide)), if_neg (low (by decide)),
      if_neg (by omega), if_neg (by omega), if_neg (by omega)]
    rfl
  · have single : bytes [c] = [c].length := bytes_ascii fun d member => by
      rw [List.mem_singleton.mp member]
      exact range.2
    rw [bytes_cons, bytes_nil] at single
    exact single

theorem size_plain {s : Text} (plain : s.all plainChar) : size (.str s) = s.length + 2 := by
  rw [size_str]
  have written : bytes (s.flatMap (escapeChar false)) = s.length := by
    induction s with
    | nil => rfl
    | cons c rest ih =>
      rw [List.all_cons, Bool.and_eq_true] at plain
      have here := escapeChar_plain plain.1
      rw [List.flatMap_cons, bytes_append, here.1, bytes_cons, bytes_nil, here.2, ih plain.2, List.length_cons]
      omega
  omega

theorem size_nat_le {n e : Nat} (positive : 0 < e) (small : n < 10 ^ e) : size (.int n) ≤ e := by
  have digits : (Nat.toDigits 10 n).length ≤ e := Nat.toDigits_length 10 n e positive small
  have ascii : ∀ c ∈ Nat.toDigits 10 n, c.toNat < 128 := by
    intro c member
    have digit := Nat.isDigit_of_mem_toDigits (by decide) (by decide) member
    simp only [Char.isDigit, Bool.and_eq_true, decide_eq_true_eq] at digit
    have := UInt32.le_iff_toNat_le.mp digit.2
    exact lt_of_le_of_lt this (by decide)
  have text : dumps false (.int n) = Nat.toDigits 10 n := by
    rw [dumps, intText, if_neg (by omega), Int.natAbs_natCast]
  rw [size_eq, text, bytes_ascii ascii]
  exact digits

/-- An array of at most `n` items of at most `k` bytes each. -/
theorem size_arr_le {items : List Value} {n k : Nat} (few : items.length ≤ n) (each : ∀ item ∈ items, size item ≤ k) :
    size (.arr items) ≤ n * (k + 1) + 2 := by
  have total : (items.map fun item => size item + 1).sum ≤ items.length * (k + 1) := by
    induction items with
    | nil => exact Nat.zero_le _
    | cons item rest ih =>
      have here := each item List.mem_cons_self
      have later := ih (Nat.le_of_succ_le few) fun other member => each other (List.mem_cons_of_mem _ member)
      rw [List.map_cons, List.sum_cons, List.length_cons, Nat.succ_mul]
      omega
  have most : items.length * (k + 1) ≤ n * (k + 1) := Nat.mul_le_mul_right _ few
  rw [size_arr]
  omega

/-- An array of items of at least `k` bytes each. -/
theorem le_size_arr {items : List Value} {k : Nat} (each : ∀ item ∈ items, k ≤ size item) :
    items.length * (k + 1) ≤ size (.arr items) := by
  have total : items.length * (k + 1) ≤ (items.map fun item => size item + 1).sum := by
    induction items with
    | nil => exact Nat.le_of_eq (Nat.zero_mul _)
    | cons item rest ih =>
      have here := each item List.mem_cons_self
      have later := ih fun other member => each other (List.mem_cons_of_mem _ member)
      rw [List.map_cons, List.sum_cons, List.length_cons, Nat.succ_mul]
      omega
  rw [size_arr]
  omega

/-- An object with plain keys. -/
theorem size_fields {fields : List (Text × Value)} (plain : fields.all fun entry => entry.1.all plainChar) :
    size (.obj fields) = 1 + max 1 ((fields.map fun entry => entry.1.length + size entry.2 + 4).sum) := by
  have same : (fields.map fun entry => size (.str entry.1) + size entry.2 + 2) =
      fields.map fun entry => entry.1.length + size entry.2 + 4 := by
    refine List.map_congr_left fun entry member => ?_
    rw [size_plain (List.all_eq_true.mp plain entry member)]
    omega
  rw [size_obj, same]

end DocGuard.Json
