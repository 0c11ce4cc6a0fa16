import DocGuard.Text

/-!
Sorted lists and lists of distinct members, in the form in which a program
keeps a set for output: `sortedSet` is `sorted(set(xs))`, `sortedBy` is a stable
`sorted(xs, key=...)`. Two strictly increasing lists with the same members are
equal, so that such a list depends on nothing but its members.
-/
namespace DocGuard.Ordered
universe u v

variable {α : Type u} {β : Type v} [LinearOrder α]

/-- The distinct members of a list, in increasing order. -/
def sortedSet (xs : List α) : List α := xs.dedup.insertionSort (· ≤ ·)

/-- A list in the order of its keys; members with equal keys keep their order. -/
def sortedBy (key : β → α) (xs : List β) : List β := xs.insertionSort (fun a b => key a ≤ key b)

theorem mem_sortedSet {xs : List α} {x : α} : x ∈ sortedSet xs ↔ x ∈ xs := by
  simp [sortedSet]

theorem sortedSet_nodup (xs : List α) : (sortedSet xs).Nodup :=
  (List.perm_insertionSort _ _).nodup_iff.mpr (List.nodup_dedup xs)

theorem sortedSet_increasing (xs : List α) : (sortedSet xs).Pairwise (· < ·) := by
  have sorted : (sortedSet xs).Pairwise (· ≤ ·) := List.pairwise_insertionSort _ _
  exact sorted.imp₂ (fun _ _ le ne => lt_of_le_of_ne le ne) (sortedSet_nodup xs)

theorem increasing_nodup {xs : List α} (increasing : xs.Pairwise (· < ·)) : xs.Nodup :=
  increasing.imp (fun lt => ne_of_lt lt)

/-- Strictly increasing lists with the same members are equal. -/
theorem increasing_ext {xs ys : List α} (left : xs.Pairwise (· < ·)) (right : ys.Pairwise (· < ·))
    (same : ∀ x, x ∈ xs ↔ x ∈ ys) : xs = ys := by
  have perm : xs.Perm ys := (List.perm_ext_iff_of_nodup (increasing_nodup left) (increasing_nodup right)).mpr same
  exact perm.eq_of_pairwise (fun _ _ _ _ lt gt => absurd lt (lt_asymm gt)) left right

theorem sortedSet_of_increasing {xs : List α} (increasing : xs.Pairwise (· < ·)) : sortedSet xs = xs :=
  increasing_ext (sortedSet_increasing xs) increasing (fun _ => mem_sortedSet)

theorem sortedSet_congr {xs ys : List α} (same : ∀ x, x ∈ xs ↔ x ∈ ys) : sortedSet xs = sortedSet ys :=
  increasing_ext (sortedSet_increasing xs) (sortedSet_increasing ys)
    (fun x => mem_sortedSet.trans ((same x).trans mem_sortedSet.symm))

@[simp] theorem sortedSet_nil : sortedSet ([] : List α) = [] := rfl

@[simp] theorem sortedSet_idem (xs : List α) : sortedSet (sortedSet xs) = sortedSet xs :=
  sortedSet_of_increasing (sortedSet_increasing xs)

@[simp] theorem sortedSet_eq_nil {xs : List α} : sortedSet xs = [] ↔ xs = [] := by
  constructor
  · intro empty
    rw [List.eq_nil_iff_forall_not_mem]
    intro x member
    exact List.not_mem_nil (empty ▸ mem_sortedSet.mpr member)
  · rintro rfl
    rfl

/-- A set inside a list has at most as many members as the list. -/
theorem sortedSet_length_le {xs ys : List α} (sub : xs ⊆ ys) : (sortedSet xs).length ≤ ys.length :=
  ((sortedSet_nodup xs).subperm (fun _ member => sub (mem_sortedSet.mp member))).length_le

theorem sortedBy_perm (key : β → α) (xs : List β) : (sortedBy key xs).Perm xs :=
  List.perm_insertionSort _ xs

theorem mem_sortedBy {key : β → α} {xs : List β} {x : β} : x ∈ sortedBy key xs ↔ x ∈ xs :=
  (sortedBy_perm key xs).mem_iff

@[simp] theorem sortedBy_length (key : β → α) (xs : List β) : (sortedBy key xs).length = xs.length :=
  (sortedBy_perm key xs).length_eq

/-! ### Stability -/

/-- Members with one key keep their order. -/
theorem filter_orderedInsert (key : β → α) (k : α) (x : β) (xs : List β) :
    (xs.orderedInsert (fun a b => key a ≤ key b) x).filter (fun y => key y = k) = (x :: xs).filter fun y => key y = k := by
  induction xs with
  | nil => rfl
  | cons y rest ih =>
    by_cases order : key x ≤ key y
    · rw [List.orderedInsert, if_pos order]
    · rw [List.orderedInsert, if_neg order, List.filter_cons, ih]
      by_cases first : key x = k
      · have second : key y ≠ k := fun same => order (first.trans same.symm).le
        simp [first,second]
      · simp [first,List.filter_cons]

theorem filter_sortedBy (key : β → α) (k : α) (xs : List β) :
    (sortedBy key xs).filter (fun y => key y = k) = xs.filter fun y => key y = k := by
  induction xs with
  | nil => rfl
  | cons x rest ih =>
    have inserted : sortedBy key (x :: rest) = (sortedBy key rest).orderedInsert (fun a b => key a ≤ key b) x := rfl
    rw [inserted, filter_orderedInsert, List.filter_cons, List.filter_cons, ih]

/-- Lists in the order of their keys are equal if, for each key, the members with that key are. -/
theorem ordered_ext {key : β → α} {xs ys : List β} (first : xs.Pairwise fun a b => key a ≤ key b)
    (second : ys.Pairwise fun a b => key a ≤ key b)
    (same : ∀ k, xs.filter (fun y => key y = k) = ys.filter fun y => key y = k) : xs = ys := by
  induction xs generalizing ys with
  | nil =>
    refine (List.eq_nil_iff_forall_not_mem.mpr fun y member => ?_).symm
    have listed : y ∈ ys.filter fun z => key z = key y := List.mem_filter.mpr ⟨member,decide_eq_true rfl⟩
    rw [← same] at listed
    exact List.not_mem_nil listed
  | cons x rest ih =>
    have listed : x ∈ ys.filter fun z => key z = key x := by
      rw [← same]
      exact List.mem_filter.mpr ⟨List.mem_cons_self,decide_eq_true rfl⟩
    cases ys with
    | nil => exact absurd listed List.not_mem_nil
    | cons y others =>
      have back : y ∈ (x :: rest).filter fun z => key z = key y := by
        rw [same]
        exact List.mem_filter.mpr ⟨List.mem_cons_self,decide_eq_true rfl⟩
      have below : ∀ z ∈ x :: rest, key x ≤ key z := fun z member =>
        (List.mem_cons.mp member).elim (fun equal => (congrArg key equal).ge) (List.rel_of_pairwise_cons first)
      have above : ∀ z ∈ y :: others, key y ≤ key z := fun z member =>
        (List.mem_cons.mp member).elim (fun equal => (congrArg key equal).ge) (List.rel_of_pairwise_cons second)
      have equal : key x = key y :=
        le_antisymm (below y (List.mem_of_mem_filter back)) (above x (List.mem_of_mem_filter listed))
      have heads := same (key x)
      rw [List.filter_cons, List.filter_cons, if_pos (decide_eq_true rfl), if_pos (decide_eq_true equal.symm)] at heads
      obtain ⟨rfl,_⟩ := List.cons_eq_cons.mp heads
      refine congrArg (x :: ·) (ih (List.pairwise_cons.mp first).2 (List.pairwise_cons.mp second).2 fun k => ?_)
      have tails := same k
      rw [List.filter_cons, List.filter_cons] at tails
      split at tails
      · exact (List.cons_eq_cons.mp tails).2
      · exact tails

theorem sortedBy_congr {key : β → α} {xs ys : List β}
    (same : ∀ k, xs.filter (fun y => key y = k) = ys.filter fun y => key y = k) : sortedBy key xs = sortedBy key ys :=
  ordered_ext (List.pairwise_insertionSort _ _) (List.pairwise_insertionSort _ _) fun k => by
    rw [filter_sortedBy, filter_sortedBy, same]

/-- Of members with distinct keys, one at most has a given key, in whatever order they come. -/
theorem filter_key_perm {key : β → α} {xs ys : List β} (perm : xs.Perm ys) (distinct : (xs.map key).Nodup) (k : α) :
    xs.filter (fun y => key y = k) = ys.filter fun y => key y = k := by
  have few : (xs.filter fun y => key y = k).length ≤ 1 := by
    have keys : ((xs.filter fun y => key y = k).map key).Nodup := distinct.sublist (List.filter_sublist.map key)
    have constant : (xs.filter fun y => key y = k).map key = List.replicate (xs.filter fun y => key y = k).length k := by
      refine List.eq_replicate_iff.mpr ⟨List.length_map _,fun a member => ?_⟩
      obtain ⟨y,listed,rfl⟩ := List.mem_map.mp member
      exact of_decide_eq_true (List.mem_filter.mp listed).2
    rw [constant, List.nodup_replicate] at keys
    exact keys
  have swapped := perm.filter fun y => key y = k
  match filtered : xs.filter fun y => key y = k with
  | [] =>
    rw [filtered] at swapped
    rw [List.nil_perm.mp swapped]
  | [x] =>
    rw [filtered] at swapped
    rw [List.singleton_perm.mp swapped]
  | _ :: _ :: _ =>
    rw [filtered] at few
    exact absurd few (by simp)

/-- The order of members with distinct keys has no part in the sorted list, whatever they stand between. -/
theorem sortedBy_between {key : β → α} {xs ys : List β} (perm : xs.Perm ys) (distinct : (xs.map key).Nodup)
    (front back : List β) : sortedBy key (front ++ xs ++ back) = sortedBy key (front ++ ys ++ back) :=
  sortedBy_congr fun k => by
    rw [List.filter_append, List.filter_append, List.filter_append, List.filter_append, filter_key_perm perm distinct]

theorem sortedBy_perm_eq {key : β → α} {xs ys : List β} (perm : xs.Perm ys) (distinct : (xs.map key).Nodup) :
    sortedBy key xs = sortedBy key ys :=
  sortedBy_congr (filter_key_perm perm distinct)

/-- Where keys are distinct, a key is found exactly at the member that has it. -/
theorem find?_key {κ : Type u} [BEq κ] [LawfulBEq κ] {key : β → κ} {xs : List β} (distinct : (xs.map key).Nodup)
    {k : κ} {x : β} :
    xs.find? (fun y => key y == k) = some x ↔ x ∈ xs ∧ key x = k := by
  constructor
  · intro found
    have passed := List.find?_some found
    exact ⟨List.mem_of_find?_eq_some found,eq_of_beq passed⟩
  · rintro ⟨member,same⟩
    cases found : xs.find? fun y => key y == k with
    | none => exact absurd (beq_iff_eq.mpr same) (List.find?_eq_none.mp found x member)
    | some y =>
      have passed := List.find?_some found
      have equal : key y = key x := (eq_of_beq passed).trans same.symm
      rw [List.inj_on_of_nodup_map distinct (List.mem_of_find?_eq_some found) member equal]

theorem find?_perm {κ : Type u} [BEq κ] [LawfulBEq κ] {key : β → κ} {xs ys : List β} (perm : xs.Perm ys)
    (distinct : (xs.map key).Nodup) (k : κ) : xs.find? (fun y => key y == k) = ys.find? fun y => key y == k :=
  Option.ext fun x => by
    rw [find?_key distinct, find?_key ((perm.map key).nodup_iff.mp distinct), perm.mem_iff]

theorem ne_nil_iff_mem {γ : Type v} {xs : List γ} : xs ≠ [] ↔ ∃ x, x ∈ xs :=
  ⟨List.exists_mem_of_ne_nil xs,fun ⟨_,member⟩ => List.ne_nil_of_mem member⟩

/-- Distinct members in order are the set of them. -/
theorem sortedBy_id {xs : List α} (distinct : xs.Nodup) : sortedBy id xs = sortedSet xs := by
  rw [sortedBy,sortedSet,distinct.dedup]
  rfl

end DocGuard.Ordered
