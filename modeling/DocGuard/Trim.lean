import Mathlib.Data.List.DropRight
import Mathlib.Tactic.Common

/-!
Lists without the elements of a kind, here called blank, at their ends, and what
becomes of the ends when elements are left out afterwards.
-/
namespace DocGuard.Trim

variable {α : Type*} (p : α → Bool)

/-- The list without the blank elements at its ends. -/
def trim (l : List α) : List α := (l.dropWhile p).rdropWhile p

/-- A blank element stands first. -/
def Begins (l : List α) : Prop := ∃ c rest, l = c :: rest ∧ p c = true

/-- A blank element stands last. -/
def Ends (l : List α) : Prop := ∃ front c, l = front ++ [c] ∧ p c = true

variable {p}

theorem ends_reverse {l : List α} : Ends p l.reverse ↔ Begins p l := by
  constructor
  · rintro ⟨front,c,equal,blank⟩
    refine ⟨c,front.reverse,?_,blank⟩
    rw [← List.reverse_reverse l, equal, List.reverse_append]
    rfl
  · rintro ⟨c,rest,rfl,blank⟩
    exact ⟨rest.reverse,c,List.reverse_cons,blank⟩

theorem begins_reverse {l : List α} : Begins p l.reverse ↔ Ends p l := by
  rw [← ends_reverse, List.reverse_reverse]

theorem dropWhile_of_not_begins {l : List α} (sharp : ¬ Begins p l) : l.dropWhile p = l := by
  cases l with
  | nil => rfl
  | cons c rest => exact List.dropWhile_cons_of_neg fun blank => sharp ⟨c,rest,rfl,blank⟩

theorem rdropWhile_of_not_ends {l : List α} (sharp : ¬ Ends p l) : l.rdropWhile p = l := by
  rw [List.rdropWhile_eq_self_iff]
  exact fun present blank => sharp ⟨l.dropLast,l.getLast present,(List.dropLast_concat_getLast present).symm,blank⟩

theorem not_begins_dropWhile (l : List α) : ¬ Begins p (l.dropWhile p) := by
  rintro ⟨c,rest,equal,blank⟩
  have first := List.head?_dropWhile_not p l
  rw [equal] at first
  exact absurd (blank.symm.trans first) (by decide)

theorem not_ends_rdropWhile (l : List α) : ¬ Ends p (l.rdropWhile p) := by
  rintro ⟨front,c,equal,blank⟩
  have present : l.rdropWhile p ≠ [] := by
    rw [equal]
    exact List.append_ne_nil_of_right_ne_nil front (List.cons_ne_nil c [])
  have last := List.rdropWhile_last_not p l present
  simp only [equal, List.getLast_concat] at last
  exact last blank

theorem not_begins_prefix {l m : List α} (part : l <+: m) (sharp : ¬ Begins p m) : ¬ Begins p l := by
  rintro ⟨c,rest,rfl,blank⟩
  obtain ⟨more,rfl⟩ := part
  exact sharp ⟨c,rest ++ more,rfl,blank⟩

theorem trim_not_begins (l : List α) : ¬ Begins p (trim p l) :=
  not_begins_prefix (List.rdropWhile_prefix _ _) (not_begins_dropWhile l)

theorem trim_not_ends (l : List α) : ¬ Ends p (trim p l) := not_ends_rdropWhile _

theorem trim_eq_self_iff {l : List α} : trim p l = l ↔ ¬ Begins p l ∧ ¬ Ends p l := by
  constructor
  · intro same
    rw [← same]
    exact ⟨trim_not_begins l,trim_not_ends l⟩
  · rintro ⟨first,last⟩
    rw [trim, dropWhile_of_not_begins first, rdropWhile_of_not_ends last]

theorem trim_of_not_begins {l : List α} (sharp : ¬ Begins p l) : trim p l = l.rdropWhile p := by
  rw [trim, dropWhile_of_not_begins sharp]

/-- A list is what trimming leaves, between blanks. -/
theorem trim_between (l : List α) :
    ∃ before after, l = before ++ (trim p l ++ after) ∧ (∀ c ∈ before, p c = true) ∧ ∀ c ∈ after, p c = true := by
  refine ⟨l.takeWhile p,(l.dropWhile p).rtakeWhile p,?_,fun c => List.mem_takeWhile_imp,
    fun c => List.mem_rtakeWhile_imp⟩
  rw [trim, List.rdropWhile_append_rtakeWhile, List.takeWhile_append_dropWhile]

theorem dropWhile_blanks {before : List α} (blank : ∀ c ∈ before, p c = true) (l : List α) :
    (before ++ l).dropWhile p = l.dropWhile p :=
  List.dropWhile_append_of_pos blank

theorem rdropWhile_blanks {after : List α} (blank : ∀ c ∈ after, p c = true) (l : List α) :
    (l ++ after).rdropWhile p = l.rdropWhile p := by
  rw [List.rdropWhile, List.reverse_append, dropWhile_blanks (fun c member => blank c (List.mem_reverse.mp member))]
  rfl

theorem rdropWhile_append (l : List α) {m : List α} (sharp : ∃ d ∈ m, p d = false) :
    (l ++ m).rdropWhile p = l ++ m.rdropWhile p := by
  have stands : ¬ (m.reverse.dropWhile p).isEmpty = true := by
    intro none
    obtain ⟨d,member,different⟩ := sharp
    have blank := List.dropWhile_eq_nil_iff.mp (List.isEmpty_iff.mp none) d (List.mem_reverse.mpr member)
    exact absurd (blank.symm.trans different) (by decide)
  rw [List.rdropWhile, List.reverse_append, List.dropWhile_append, if_neg stands, List.reverse_append, List.reverse_reverse]
  rfl

/-- Blanks at the ends of a list have no part in what trimming leaves. -/
theorem trim_blanks {before after : List α} (blankBefore : ∀ c ∈ before, p c = true) (blankAfter : ∀ c ∈ after, p c = true)
    (l : List α) : trim p (before ++ (l ++ after)) = trim p l := by
  rw [trim, dropWhile_blanks blankBefore]
  by_cases blank : ∀ c ∈ l, p c = true
  · rw [dropWhile_blanks blank, trim, List.dropWhile_eq_nil_iff.mpr blank, List.dropWhile_eq_nil_iff.mpr blankAfter]
  · rw [List.dropWhile_append, if_neg]
    · exact rdropWhile_blanks blankAfter _
    · intro none
      exact blank (List.dropWhile_eq_nil_iff.mp (List.isEmpty_iff.mp none))

theorem trim_unique {l before middle after : List α} (between : l = before ++ (middle ++ after))
    (blankBefore : ∀ c ∈ before, p c = true) (blankAfter : ∀ c ∈ after, p c = true) (first : ¬ Begins p middle)
    (last : ¬ Ends p middle) : trim p l = middle := by
  rw [between, trim_blanks blankBefore blankAfter, trim_eq_self_iff.mpr ⟨first,last⟩]

theorem trim_reverse (l : List α) : trim p l.reverse = (trim p l).reverse := by
  obtain ⟨before,after,between,blankBefore,blankAfter⟩ := trim_between (p := p) l
  have turned : l.reverse = after.reverse ++ ((trim p l).reverse ++ before.reverse) := by
    conv_lhs => rw [between]
    simp only [List.reverse_append, List.append_assoc]
  refine trim_unique turned (fun c member => blankAfter c (List.mem_reverse.mp member))
    (fun c member => blankBefore c (List.mem_reverse.mp member)) ?_ ?_
  · rw [begins_reverse]
    exact trim_not_ends l
  · rw [ends_reverse]
    exact trim_not_begins l

/-- Trimming before elements are left out, none of them blank, changes nothing about trimming afterwards. -/
theorem trim_filter_trim (q : α → Bool) (l : List α) : trim p ((trim p l).filter q) = trim p (l.filter q) := by
  obtain ⟨before,after,between,blankBefore,blankAfter⟩ := trim_between (p := p) l
  have parted : l.filter q = before.filter q ++ ((trim p l).filter q ++ after.filter q) := by
    conv_lhs => rw [between]
    rw [List.filter_append, List.filter_append]
  rw [parted, trim_blanks (fun c member => blankBefore c (List.mem_of_mem_filter member))
    (fun c member => blankAfter c (List.mem_of_mem_filter member))]

theorem trim_map {f : α → α} (dull : ∀ c, p (f c) = p c) (l : List α) : trim p (l.map f) = (trim p l).map f := by
  have same : p ∘ f = p := funext dull
  simp only [trim, List.rdropWhile, List.dropWhile_map, ← List.map_reverse, same]

theorem trim_part (l : List α) : trim p l <:+: l :=
  (List.rdropWhile_prefix _ _).isInfix.trans (List.dropWhile_suffix _).isInfix

theorem trim_eq_nil {l : List α} (blank : ∀ c ∈ l, p c = true) : trim p l = [] := by
  rw [trim, List.dropWhile_eq_nil_iff.mpr blank, List.rdropWhile_nil]

/-! ### The first elements -/

theorem take_trim {l : List α} {n : Nat} (first : ¬ Begins p l) (last : (trim p l).length < n → ¬ Ends p l) :
    (trim p l).take n = l.take n := by
  rw [trim_of_not_begins first] at last ⊢
  by_cases short : (l.rdropWhile p).length < n
  · rw [rdropWhile_of_not_ends (last short)]
  · obtain ⟨after,joined⟩ := List.rdropWhile_prefix p l
    conv_rhs => rw [← joined]
    exact (List.take_append_of_le_length (not_lt.mp short)).symm

theorem ends_iff {l : List α} : Ends p l ↔ ∃ c, l.getLast? = some c ∧ p c = true := by
  simp only [Ends, List.getLast?_eq_some_iff]
  exact ⟨fun ⟨front,c,equal,blank⟩ => ⟨c,⟨front,equal⟩,blank⟩,fun ⟨c,⟨front,equal⟩,blank⟩ => ⟨front,c,equal,blank⟩⟩

theorem ends_of_beyond {l : List α} {k : Nat} {c : α} (short : (l.rdropWhile p).length ≤ k) (here : l[k]? = some c) :
    p c = true ∧ Ends p l := by
  have joined := List.rdropWhile_append_rtakeWhile (p := p) (l := l)
  have member : c ∈ l.rtakeWhile p := by
    rw [← joined, List.getElem?_append_right short] at here
    exact List.mem_of_getElem? here
  refine ⟨List.mem_rtakeWhile_imp member,?_⟩
  have present : l.rtakeWhile p ≠ [] := List.ne_nil_of_mem member
  refine ⟨l.rdropWhile p ++ (l.rtakeWhile p).dropLast,(l.rtakeWhile p).getLast present,?_,
    List.mem_rtakeWhile_imp (List.getLast_mem present)⟩
  rw [List.append_assoc, List.dropLast_concat_getLast, joined]

/-- The first elements are trimmed exactly if the list does not begin with a blank, does not end with one among them, and has
    no blank where it is cut. -/
theorem trim_take_iff (l : List α) (k : Nat) : trim p (l.take (k + 1)) = l.take (k + 1) ↔
    ¬ Begins p l ∧ ((trim p l).length < k + 1 → ¬ Ends p l) ∧ ∀ c, (trim p l)[k]? = some c → p c = false := by
  have begins : Begins p (l.take (k + 1)) ↔ Begins p l := by
    cases l with
    | nil => rfl
    | cons c rest => exact ⟨fun ⟨_,_,equal,blank⟩ => ⟨c,rest,rfl,by cases equal; exact blank⟩,
        fun ⟨_,_,equal,blank⟩ => ⟨c,rest.take k,rfl,by cases equal; exact blank⟩⟩
  rw [trim_eq_self_iff, begins]
  refine and_congr_right fun first => ?_
  rw [trim_of_not_begins first, ends_iff, List.getLast?_take, if_neg (Nat.succ_ne_zero k), Nat.add_sub_cancel]
  by_cases short : (l.rdropWhile p).length < k + 1
  · have none : (l.rdropWhile p)[k]? = none := List.getElem?_eq_none (Nat.lt_succ_iff.mp short)
    simp only [none, reduceCtorEq, false_implies, implies_true, and_true, short, true_implies]
    cases here : l[k]? with
    | none => rw [Option.none_or, ← ends_iff]
    | some c =>
      obtain ⟨blank,ends⟩ := ends_of_beyond (Nat.lt_succ_iff.mp short) here
      exact iff_of_false (fun sharp => sharp ⟨c,rfl,blank⟩) (fun sharp => sharp ends)
  · have long : k < (l.rdropWhile p).length := by omega
    have same : l[k]? = some (l.rdropWhile p)[k] := by
      exact List.prefix_iff_getElem?.mp (List.rdropWhile_prefix p l) k long
    rw [same, List.getElem?_eq_getElem long]
    simp [short]

/-! ### Blanks behind elements that are left out -/

/-- A blank stands behind an element that is not kept, with blanks and elements that are not kept before it, and something
    other than blanks after it. -/
def Shielded (p q : α → Bool) (l : List α) : Prop :=
  ∃ front c rest, l = front ++ c :: rest ∧ p c = true ∧ (∀ d ∈ front, p d = true ∨ q d = false) ∧
    (∃ d ∈ front, q d = false) ∧ ∃ d ∈ rest, p d = false

variable {q : α → Bool}

/-- After trimming, leaving elements out uncovers a blank exactly if one stands behind them. -/
theorem begins_filter_trim (apart : ∀ c, p c = true → q c = true) (l : List α) :
    Begins p ((trim p l).filter q) ↔ Shielded p q l := by
  constructor
  · rintro ⟨c,left,equal,blank⟩
    obtain ⟨front,rest,parts,gone,_,_⟩ := List.filter_eq_cons_iff.mp equal
    obtain ⟨before,after,between,blankBefore,_⟩ := trim_between (p := p) l
    refine ⟨before ++ front,c,rest ++ after,?_,blank,?_,?_,?_⟩
    · rw [between, parts]
      simp only [List.append_assoc, List.cons_append]
    · intro d member
      rcases List.mem_append.mp member with inside | inside
      · exact .inl (blankBefore d inside)
      · exact .inr (by simpa using gone d inside)
    · cases front with
      | nil => exact absurd ⟨c,rest,parts,blank⟩ (trim_not_begins l)
      | cons d front => exact ⟨d,List.mem_append_right _ List.mem_cons_self,by simpa using gone d List.mem_cons_self⟩
    · rcases List.eq_nil_or_concat rest with rfl | ⟨inner,d,rfl⟩
      · exact absurd ⟨front,c,parts,blank⟩ (trim_not_ends l)
      · refine ⟨d,List.mem_append_left _ (by simp),?_⟩
        by_contra dull
        refine trim_not_ends (p := p) l ⟨front ++ c :: inner,d,?_,by simpa using dull⟩
        rw [parts, List.concat_eq_append, List.append_assoc, List.cons_append]
  · rintro ⟨front,c,rest,rfl,blank,dull,⟨gone,inside,missing⟩,⟨solid,beyond,sharp⟩⟩
    have stands : ¬ (front.dropWhile p).isEmpty = true := by
      intro none
      have blank := List.dropWhile_eq_nil_iff.mp (List.isEmpty_iff.mp none) gone inside
      rw [apart gone blank] at missing
      cases missing
    have trimmed : trim p (front ++ c :: rest) = front.dropWhile p ++ (c :: rest).rdropWhile p := by
      rw [trim, List.dropWhile_append, if_neg stands, rdropWhile_append]
      exact ⟨solid,List.mem_cons_of_mem c beyond,sharp⟩
    have stays : (c :: rest).rdropWhile p = c :: rest.rdropWhile p :=
      rdropWhile_append [c] ⟨solid,beyond,sharp⟩
    rw [trimmed, stays, List.filter_append, List.filter_cons_of_pos (apart c blank)]
    cases left : (front.dropWhile p).filter q with
    | nil => exact ⟨c,_,rfl,blank⟩
    | cons d others =>
      refine ⟨d,_,List.cons_append,?_⟩
      have kept : d ∈ (front.dropWhile p).filter q := by
        rw [left]
        exact List.mem_cons_self
      obtain ⟨member,shown⟩ := List.mem_filter.mp kept
      rcases dull d ((List.dropWhile_suffix p).subset member) with blank | gone
      · exact blank
      · rw [shown] at gone
        cases gone

end DocGuard.Trim
