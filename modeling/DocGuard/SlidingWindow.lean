import Mathlib

/-!
Windows that slide over moments. A limiter keeps the moments of a key and forgets
those that have left the window; since the clock never runs back, what it keeps
and the whole history have the same moments in every window to come. If each
moment found fewer than `limit` others in the window that ends at it, no window
ever holds more than `limit`.
-/
namespace DocGuard.SlidingWindow
universe u v

/-- A clock tells, for every moment, the one a number of seconds before it: later for a later moment, and earlier for a
    larger number. -/
structure Clock (T : Type u) [LinearOrder T] where
  back : T → Int → T
  forward : ∀ seconds, Monotone fun now => back now seconds
  longer : ∀ now, Antitone (back now)
  earlier : ∀ now seconds, 0 < seconds → back now seconds < now

section
variable {T : Type u} [LinearOrder T]

/-- The moments after a cutoff. -/
def recent (cutoff : T) (moments : List T) : List T := moments.filter fun moment => cutoff < moment

@[simp] theorem recent_nil (cutoff : T) : recent cutoff [] = [] := rfl

theorem recent_append (cutoff : T) (before after : List T) :
    recent cutoff (before ++ after) = recent cutoff before ++ recent cutoff after :=
  List.filter_append ..

theorem recent_recent {early late : T} (order : early ≤ late) (moments : List T) :
    recent late (recent early moments) = recent late moments := by
  rw [recent, recent, List.filter_filter]
  refine List.filter_congr fun moment _ => ?_
  rw [Bool.and_eq_left_iff_imp]
  exact fun after => decide_eq_true (order.trans_lt (of_decide_eq_true after))

/-- Moments in order leave the window from the front. -/
theorem dropWhile_recent {moments : List T} (ordered : moments.Pairwise (· ≤ ·)) (cutoff : T) :
    moments.dropWhile (fun moment => moment ≤ cutoff) = recent cutoff moments := by
  induction moments with
  | nil => rfl
  | cons moment rest ih =>
    obtain ⟨least,orderedRest⟩ := List.pairwise_cons.mp ordered
    by_cases gone : moment ≤ cutoff
    · rw [List.dropWhile_cons, if_pos (decide_eq_true gone), ih orderedRest, recent, recent,
        List.filter_cons_of_neg (by simpa using gone)]
    · rw [List.dropWhile_cons, if_neg (by simpa using gone)]
      refine (List.filter_eq_self.mpr fun other member => ?_).symm
      have reached : moment ≤ other := by
        rcases List.mem_cons.mp member with rfl | inside
        · exact le_rfl
        · exact least other inside
      exact decide_eq_true ((not_le.mp gone).trans_le reached)

theorem append_ordered {moments : List T} {now : T} (ordered : moments.Pairwise (· ≤ ·))
    (latest : ∀ moment ∈ moments, moment ≤ now) : (moments ++ [now]).Pairwise (· ≤ ·) := by
  refine List.pairwise_append.mpr ⟨ordered,List.pairwise_singleton _ _,fun moment member last inside => ?_⟩
  rw [List.mem_singleton.mp inside]
  exact latest moment member

/-- The moments in the window that ends at a moment. -/
def within (clock : Clock T) (seconds : Int) (now : T) (moments : List T) : List T :=
  moments.filter fun moment => clock.back now seconds < moment ∧ moment ≤ now

/-- If each moment found fewer than `limit` others in the window that ends at it, every window holds at most `limit`. -/
theorem within_length_le (clock : Clock T) (seconds limit : Int) {moments : List T} (ordered : moments.Pairwise (· ≤ ·))
    (found : ∀ before now after, moments = before ++ now :: after →
      ((recent (clock.back now seconds) before).length : Int) < limit) (nonneg : 0 ≤ limit) (t : T) :
    ((within clock seconds t moments).length : Int) ≤ limit := by
  induction moments using List.reverseRecOn with
  | nil => exact nonneg
  | append_singleton before now ih =>
    obtain ⟨orderedBefore,_,latest⟩ := List.pairwise_append.mp ordered
    have earlier := ih orderedBefore fun front moment after equal => found front moment (after ++ [now]) (by rw [equal]; simp)
    by_cases inside : clock.back t seconds < now ∧ now ≤ t
    · have room := found before now [] rfl
      have kept : (within clock seconds t before).length ≤ (recent (clock.back now seconds) before).length := by
        refine (List.monotone_filter_right before fun moment holds => ?_).length_le
        rw [decide_eq_true_eq] at holds ⊢
        exact (clock.forward seconds inside.2).trans_lt holds.1
      have joined : within clock seconds t (before ++ [now]) = within clock seconds t before ++ [now] := by
        rw [within, List.filter_append, List.filter_singleton, decide_eq_true inside, cond_true]
        rfl
      rw [joined, List.length_append, List.length_singleton, Nat.cast_add, Nat.cast_one]
      omega
    · have joined : within clock seconds t (before ++ [now]) = within clock seconds t before := by
        rw [within, List.filter_append, List.filter_singleton, decide_eq_false inside, cond_false, List.append_nil]
        rfl
      rw [joined]
      exact earlier

end

/-! ### The moments of many keys -/

/-- The keys that are tracked, and the moments of each. -/
structure Table (K : Type u) (T : Type v) where
  keys : Finset K
  moments : K → List T
  absent : ∀ key, key ∉ keys → moments key = []

namespace Table
variable {K : Type u} {T : Type v}

def empty : Table K T := ⟨∅,fun _ => [],fun _ _ => rfl⟩

variable [DecidableEq K]

/-- The moments of one key are replaced; the key is tracked from then on. -/
def put (table : Table K T) (key : K) (moments : List T) : Table K T where
  keys := insert key table.keys
  moments := Function.update table.moments key moments
  absent := by
    intro other missing
    rw [Finset.mem_insert, not_or] at missing
    rw [Function.update_of_ne missing.1, table.absent other missing.2]

/-- The key is forgotten. -/
def pop (table : Table K T) (key : K) : Table K T where
  keys := table.keys.erase key
  moments := Function.update table.moments key []
  absent := by
    intro other missing
    by_cases same : other = key
    · rw [same, Function.update_self]
    · rw [Function.update_of_ne same]
      exact table.absent other fun tracked => missing (Finset.mem_erase.mpr ⟨same,tracked⟩)

/-- The moments up to the cutoff are dropped from the front, and keys without moments are forgotten. -/
def prune [LinearOrder T] (table : Table K T) (cutoff : T) : Table K T where
  keys := table.keys.filter fun key => (table.moments key).dropWhile (fun moment => moment ≤ cutoff) ≠ []
  moments key := (table.moments key).dropWhile fun moment => moment ≤ cutoff
  absent := by
    intro key missing
    by_contra left
    by_cases tracked : key ∈ table.keys
    · exact missing (Finset.mem_filter.mpr ⟨tracked,left⟩)
    · rw [table.absent key tracked] at left
      exact left rfl

@[simp] theorem put_moments_self (table : Table K T) (key : K) (moments : List T) :
    (table.put key moments).moments key = moments := Function.update_self ..

theorem put_moments_of_ne (table : Table K T) {key other : K} (moments : List T) (different : other ≠ key) :
    (table.put key moments).moments other = table.moments other := Function.update_of_ne different ..

@[simp] theorem put_keys (table : Table K T) (key : K) (moments : List T) :
    (table.put key moments).keys = insert key table.keys := rfl

@[simp] theorem pop_moments_self (table : Table K T) (key : K) : (table.pop key).moments key = [] :=
  Function.update_self ..

theorem pop_moments_of_ne (table : Table K T) {key other : K} (different : other ≠ key) :
    (table.pop key).moments other = table.moments other := Function.update_of_ne different ..

variable [LinearOrder T]

/-- Every key's moments are in order. -/
def Ordered (table : Table K T) : Prop := ∀ key, (table.moments key).Pairwise (· ≤ ·)

theorem prune_moments {table : Table K T} (ordered : table.Ordered) (cutoff : T) (key : K) :
    (table.prune cutoff).moments key = recent cutoff (table.moments key) :=
  dropWhile_recent (ordered key) cutoff

/-- After pruning, the keys with a moment left are tracked. -/
theorem mem_prune_keys {table : Table K T} (ordered : table.Ordered) {cutoff : T} {key : K} :
    key ∈ (table.prune cutoff).keys ↔ recent cutoff (table.moments key) ≠ [] := by
  rw [← prune_moments ordered]
  constructor
  · exact fun member => (Finset.mem_filter.mp member).2
  · intro left
    by_contra missing
    exact left ((table.prune cutoff).absent key missing)

end Table
end DocGuard.SlidingWindow
