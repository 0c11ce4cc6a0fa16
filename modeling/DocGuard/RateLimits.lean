import DocGuard.SlidingWindow
import DocGuard.Text

/-!
The limiter of failed logins and the limiter of operator requests. The first one
keeps failures for an hour and tracks at most 10,000 keys: with respect to the
failures that it has recorded since a key was cleared, it is exact. The second one
keeps the accepted requests of a key: no window holds more of them than the limit,
and a request is refused only by the accepted ones.
-/
namespace DocGuard.RateLimits
open DocGuard.SlidingWindow

section
variable {T : Type} [LinearOrder T] (clock : Clock T) (sha256 : Text → Text)

/-! ### Failed logins -/

/-- `_MAX_TRACKED_KEYS` -/
def MAX_TRACKED_KEYS : Nat := 10000

structure LoginRateLimiter (T : Type) where
  perMinute : Int
  perHour : Int
  attempts : Table Text T

/-- A limiter that has recorded nothing. -/
def LoginRateLimiter.start (perMinute perHour : Int) : LoginRateLimiter T := ⟨perMinute,perHour,.empty⟩

def sourceKey (sourceAddress : Text) : Text := lit "source:" ++ sha256 sourceAddress

/-- `_username_key` -/
def usernameKey (normalizedUsername : Text) : Text := lit "username:" ++ sha256 normalizedUsername

/-- `_keys` -/
def keysOf (sourceAddress normalizedUsername : Text) : List Text :=
  [sourceKey sha256 sourceAddress,usernameKey sha256 normalizedUsername]

namespace LoginRateLimiter

/-- `_key_allowed` -/
def keyAllowed (limiter : LoginRateLimiter T) (key : Text) (now : T) : Bool :=
  let attempts := limiter.attempts.moments key
  let minuteCount := attempts.countP fun moment => clock.back now 60 < moment
  decide ((minuteCount : Int) < limiter.perMinute) && decide ((attempts.length : Int) < limiter.perHour)

/-- `_prune` -/
def prune (limiter : LoginRateLimiter T) (now : T) : LoginRateLimiter T :=
  {limiter with attempts := limiter.attempts.prune (clock.back now 3600)}

def check (limiter : LoginRateLimiter T) (now : T) (sourceAddress normalizedUsername : Text) :
    Bool × LoginRateLimiter T :=
  let pruned := limiter.prune clock now
  ((keysOf sha256 sourceAddress normalizedUsername).all fun key => pruned.keyAllowed clock key now,pruned)

/-- The failure is recorded for the key, unless the key is not tracked and no further one can be. -/
def record (attempts : Table Text T) (now : T) (key : Text) : Table Text T :=
  if key ∉ attempts.keys ∧ MAX_TRACKED_KEYS ≤ attempts.keys.card then attempts
  else attempts.put key (attempts.moments key ++ [now])

def recordFailure (limiter : LoginRateLimiter T) (now : T) (sourceAddress normalizedUsername : Text) :
    LoginRateLimiter T :=
  let pruned := limiter.prune clock now
  let keys := keysOf sha256 sourceAddress normalizedUsername
  {pruned with attempts := keys.foldl (fun attempts key => record attempts now key) pruned.attempts}

def clearUsername (limiter : LoginRateLimiter T) (normalizedUsername : Text) : LoginRateLimiter T :=
  {limiter with attempts := limiter.attempts.pop (usernameKey sha256 normalizedUsername)}

end LoginRateLimiter

/-- A call of the limiter, at the moment that the clock shows. -/
inductive Call (T : Type) where
  | check (now : T) (sourceAddress normalizedUsername : Text)
  | recordFailure (now : T) (sourceAddress normalizedUsername : Text)
  | clearUsername (normalizedUsername : Text)

def Call.moments : Call T → List T
  | .check now _ _ => [now]
  | .recordFailure now _ _ => [now]
  | .clearUsername _ => []

def LoginRateLimiter.step (limiter : LoginRateLimiter T) : Call T → LoginRateLimiter T
  | .check now source username => (limiter.check clock sha256 now source username).2
  | .recordFailure now source username => limiter.recordFailure clock sha256 now source username
  | .clearUsername username => limiter.clearUsername sha256 username

def LoginRateLimiter.run (limiter : LoginRateLimiter T) (calls : List (Call T)) : LoginRateLimiter T :=
  calls.foldl (LoginRateLimiter.step clock sha256) limiter

/-! ### What the limiter is for -/

/-- The failures of each key, all of which are kept. -/
abbrev History (T : Type) := Text → List T

/-- The keys with a failure within the hour. -/
def tracked (history : History T) (now : T) : Set Text := {key | recent (clock.back now 3600) (history key) ≠ []}

/-- A failure is recorded for a key that is tracked, and for another one if fewer than 10,000 are. -/
def Room (history : History T) (now : T) (key : Text) : Prop :=
  key ∈ tracked clock history now ∨ (tracked clock history now).encard < MAX_TRACKED_KEYS

open Classical in
noncomputable def History.fail (history : History T) (now : T) (key : Text) : History T :=
  if Room clock history now key then Function.update history key (history key ++ [now]) else history

noncomputable def History.step (history : History T) : Call T → History T
  | .check _ _ _ => history
  | .recordFailure now source username =>
    (keysOf sha256 source username).foldl (fun history key => history.fail clock now key) history
  | .clearUsername username => Function.update history (usernameKey sha256 username) []

/-- The failures recorded for each key since it was cleared. -/
noncomputable def recorded (calls : List (Call T)) : History T :=
  calls.foldl (History.step clock sha256) fun _ => []

/-- The key has fewer failures than allowed, in the last minute and in the last hour. -/
def Below (perMinute perHour : Int) (history : History T) (now : T) (key : Text) : Prop :=
  ((recent (clock.back now 60) (history key)).length : Int) < perMinute ∧
    ((recent (clock.back now 3600) (history key)).length : Int) < perHour

/-! ### The limiter keeps what counts -/

/-- Attempts that hold, of every key, the failures within the hour, and track the keys that have one. -/
structure Exact (attempts : Table Text T) (history : History T) (now : T) : Prop where
  moments : ∀ key, attempts.moments key = recent (clock.back now 3600) (history key)
  keys : ∀ key, key ∈ attempts.keys ↔ key ∈ tracked clock history now

/-- Attempts that will tell the same as the history, in every window that ends after the past moments. -/
structure Tracks (attempts : Table Text T) (history : History T) (past : List T) : Prop where
  ordered : ∀ key, (history key).Pairwise (· ≤ ·)
  known : ∀ key, ∀ moment ∈ history key, moment ∈ past
  kept : ∀ key, (attempts.moments key).Sublist (history key)
  agree : ∀ cutoff, (∀ moment ∈ past, clock.back moment 3600 ≤ cutoff) →
    ∀ key, recent cutoff (attempts.moments key) = recent cutoff (history key)

variable {clock} {sha256}

theorem tracks_start (perMinute perHour : Int) :
    Tracks clock (LoginRateLimiter.start perMinute perHour : LoginRateLimiter T).attempts (fun _ => []) [] where
  ordered _ := .nil
  known _ _ member := member
  kept _ := .slnil
  agree _ _ _ := rfl

/-- Pruning leaves exactly the failures within the hour. -/
theorem exact_prune {attempts : Table Text T} {history : History T} {past : List T} (tracks : Tracks clock attempts history past)
    {now : T} (latest : ∀ moment ∈ past, moment ≤ now) :
    Exact clock (attempts.prune (clock.back now 3600)) history now := by
  have ordered : attempts.Ordered := fun key => (tracks.ordered key).sublist (tracks.kept key)
  have agree := tracks.agree _ fun moment member => clock.forward 3600 (latest moment member)
  refine ⟨fun key => ?_,fun key => ?_⟩
  · rw [Table.prune_moments ordered, agree]
  · rw [Table.mem_prune_keys ordered, agree]
    rfl

theorem tracks_of_exact {attempts : Table Text T} {history : History T} {past : List T} {now : T}
    (exact : Exact clock attempts history now) (ordered : ∀ key, (history key).Pairwise (· ≤ ·))
    (known : ∀ key, ∀ moment ∈ history key, moment ∈ past ++ [now]) : Tracks clock attempts history (past ++ [now]) where
  ordered := ordered
  known := known
  kept key := by
    rw [exact.moments]
    exact List.filter_sublist
  agree cutoff order key := by
    rw [exact.moments, recent_recent (order now (List.mem_append_right _ List.mem_cons_self))]

theorem room_iff {attempts : Table Text T} {history : History T} {now : T} (exact : Exact clock attempts history now)
    (key : Text) : Room clock history now key ↔ ¬ (key ∉ attempts.keys ∧ MAX_TRACKED_KEYS ≤ attempts.keys.card) := by
  have same : tracked clock history now = attempts.keys := Set.ext fun key => (exact.keys key).symm
  rw [Room, same, Set.encard_coe_eq_coe_finsetCard, Finset.mem_coe, Nat.cast_lt, not_and_or, not_not, not_le]

/-- A failure is recorded in both, or in neither. -/
theorem exact_record {attempts : Table Text T} {history : History T} {now : T} (exact : Exact clock attempts history now)
    (key : Text) : Exact clock (LoginRateLimiter.record attempts now key) (history.fail clock now key) now := by
  by_cases room : Room clock history now key
  · rw [LoginRateLimiter.record, if_neg ((room_iff exact key).mp room), History.fail, if_pos room]
    have fresh : recent (clock.back now 3600) [now] = [now] :=
      List.filter_eq_self.mpr fun moment member => by
        rw [List.mem_singleton.mp member]
        exact decide_eq_true (clock.earlier now 3600 (by decide))
    have moments : ∀ other, (attempts.put key (attempts.moments key ++ [now])).moments other =
        recent (clock.back now 3600) (Function.update history key (history key ++ [now]) other) := by
      intro other
      by_cases same : other = key
      · rw [same, Table.put_moments_self, Function.update_self, recent_append, fresh, exact.moments]
      · rw [Table.put_moments_of_ne _ _ same, Function.update_of_ne same, exact.moments]
    refine ⟨moments,fun other => ?_⟩
    rw [tracked, Set.mem_ofPred_eq, ← moments, Table.put_keys, Finset.mem_insert]
    by_cases same : other = key
    · rw [same, Table.put_moments_self]
      simp
    · rw [Table.put_moments_of_ne _ _ same, exact.moments, exact.keys]
      simp [same,tracked]
  · rw [LoginRateLimiter.record, if_pos (not_not.mp fun short => room ((room_iff exact key).mpr short)), History.fail,
      if_neg room]
    exact exact

variable (clock) in
theorem fail_ordered {history : History T} {past : List T} {now : T} (latest : ∀ moment ∈ past, moment ≤ now)
    (ordered : ∀ key, (history key).Pairwise (· ≤ ·)) (known : ∀ key, ∀ moment ∈ history key, moment ∈ past ++ [now])
    (key : Text) : (∀ other, (history.fail clock now key other).Pairwise (· ≤ ·)) ∧
      ∀ other, ∀ moment ∈ history.fail clock now key other, moment ∈ past ++ [now] := by
  have least : ∀ moment ∈ history key, moment ≤ now := fun moment member => by
    rcases List.mem_append.mp (known key moment member) with before | last
    · exact latest moment before
    · exact (List.mem_singleton.mp last).le
  rw [History.fail]
  split
  · constructor
    · intro other
      by_cases same : other = key
      · rw [same, Function.update_self]
        exact append_ordered (ordered key) least
      · rw [Function.update_of_ne same]
        exact ordered other
    · intro other moment member
      by_cases same : other = key
      · rw [same, Function.update_self] at member
        rcases List.mem_append.mp member with before | last
        · exact known key moment before
        · exact List.mem_append_right _ last
      · rw [Function.update_of_ne same] at member
        exact known other moment member
  · exact ⟨ordered,known⟩

/-- Every call keeps the limiter and the history in step. -/
theorem tracks_step {limiter : LoginRateLimiter T} {history : History T} {past : List T}
    (tracks : Tracks clock limiter.attempts history past) (call : Call T)
    (latest : ∀ now ∈ call.moments, ∀ moment ∈ past, moment ≤ now) :
    Tracks clock (limiter.step clock sha256 call).attempts (history.step clock sha256 call) (past ++ call.moments) := by
  cases call with
  | check now source username =>
    have exact := exact_prune tracks (latest now List.mem_cons_self)
    exact tracks_of_exact exact tracks.ordered fun key moment member => List.mem_append_left _ (tracks.known key moment member)
  | recordFailure now source username =>
    have least := latest now List.mem_cons_self
    have exact := exact_prune tracks least
    have known : ∀ key, ∀ moment ∈ history key, moment ∈ past ++ [now] := fun key moment member =>
      List.mem_append_left _ (tracks.known key moment member)
    have first := fail_ordered clock least tracks.ordered known (sourceKey sha256 source)
    have second := fail_ordered clock least first.1 first.2 (usernameKey sha256 username)
    exact tracks_of_exact (exact_record (exact_record exact _) _) second.1 second.2
  | clearUsername username =>
    have cleared (key : Text) : (key = usernameKey sha256 username ∧
        (limiter.clearUsername sha256 username).attempts.moments key = [] ∧
        Function.update history (usernameKey sha256 username) [] key = []) ∨
        ((limiter.clearUsername sha256 username).attempts.moments key = limiter.attempts.moments key ∧
          Function.update history (usernameKey sha256 username) [] key = history key) := by
      by_cases same : key = usernameKey sha256 username
      · refine .inl ⟨same,?_,?_⟩
        · rw [same]
          exact Table.pop_moments_self _ _
        · rw [same, Function.update_self]
      · exact .inr ⟨Table.pop_moments_of_ne _ same,Function.update_of_ne same _ _⟩
    simp only [Call.moments, List.append_nil]
    refine ⟨fun key => ?_,fun key => ?_,fun key => ?_,fun cutoff order key => ?_⟩
    all_goals
      simp only [LoginRateLimiter.step, History.step]
      rcases cleared key with ⟨_,none,gone⟩ | ⟨same,kept⟩
    · rw [gone]
      exact .nil
    · rw [kept]
      exact tracks.ordered key
    · rw [gone]
      exact fun _ member => absurd member List.not_mem_nil
    · rw [kept]
      exact tracks.known key
    · rw [none]
      exact List.nil_sublist _
    · rw [same, kept]
      exact tracks.kept key
    · rw [none, gone]
    · rw [same, kept]
      exact tracks.agree cutoff order key

variable (clock sha256) in
/-- After every run the limiter and the history are in step. -/
theorem tracks_run (perMinute perHour : Int) (calls : List (Call T))
    (forward : (calls.flatMap Call.moments).Pairwise (· ≤ ·)) :
    Tracks clock ((LoginRateLimiter.start perMinute perHour).run clock sha256 calls).attempts (recorded clock sha256 calls)
      (calls.flatMap Call.moments) := by
  induction calls using List.reverseRecOn with
  | nil => exact tracks_start perMinute perHour
  | append_singleton before call ih =>
    rw [List.flatMap_append] at forward ⊢
    obtain ⟨forwardBefore,_,latest⟩ := List.pairwise_append.mp forward
    simp only [List.flatMap_singleton] at latest ⊢
    rw [LoginRateLimiter.run, recorded, List.foldl_append, List.foldl_append]
    exact tracks_step (ih forwardBefore) call fun now inside moment member => latest moment member now inside

variable (clock sha256) in
theorem run_limits (limiter : LoginRateLimiter T) (calls : List (Call T)) :
    (limiter.run clock sha256 calls).perMinute = limiter.perMinute ∧
      (limiter.run clock sha256 calls).perHour = limiter.perHour := by
  induction calls generalizing limiter with
  | nil => exact ⟨rfl,rfl⟩
  | cons call rest ih =>
    obtain ⟨minute,hour⟩ := ih (limiter.step clock sha256 call)
    rw [LoginRateLimiter.run, List.foldl_cons]
    cases call
    all_goals exact ⟨minute,hour⟩

theorem keyAllowed_iff {limiter : LoginRateLimiter T} {history : History T} {now : T}
    (exact : Exact clock limiter.attempts history now) (key : Text) :
    limiter.keyAllowed clock key now = true ↔ Below clock limiter.perMinute limiter.perHour history now key := by
  have minute : (limiter.attempts.moments key).countP (fun moment => clock.back now 60 < moment) =
      (recent (clock.back now 60) (history key)).length := by
    rw [exact.moments, List.countP_eq_length_filter]
    exact congrArg List.length (recent_recent (clock.longer now (by decide)) _)
  rw [LoginRateLimiter.keyAllowed, minute, exact.moments, Bool.and_eq_true, decide_eq_true_eq, decide_eq_true_eq, Below]

theorem keyAllowed_untried {limiter : LoginRateLimiter T} {key : Text} {now : T} (none : limiter.attempts.moments key = [])
    (minute : 0 < limiter.perMinute) (hour : 0 < limiter.perHour) : limiter.keyAllowed clock key now = true := by
  rw [LoginRateLimiter.keyAllowed, none, Bool.and_eq_true]
  exact ⟨decide_eq_true minute,decide_eq_true hour⟩

end

/-- An attempt is allowed exactly if both of its keys have fewer recorded failures than allowed. -/
theorem login_throttled_iff {T : Type} [LinearOrder T] (clock : Clock T) (sha256 : Text → Text) (perMinute perHour : Int)
    (calls : List (Call T)) (now : T) (source username : Text)
    (forward : (calls.flatMap Call.moments ++ [now]).Pairwise (· ≤ ·)) :
    (((LoginRateLimiter.start perMinute perHour).run clock sha256 calls).check clock sha256 now source username).1 = true ↔
      ∀ key ∈ keysOf sha256 source username, Below clock perMinute perHour (recorded clock sha256 calls) now key := by
  obtain ⟨forwardBefore,_,latest⟩ := List.pairwise_append.mp forward
  have tracks := tracks_run clock sha256 perMinute perHour calls forwardBefore
  have exact : Exact clock (((LoginRateLimiter.start perMinute perHour).run clock sha256 calls).prune clock now).attempts
      (recorded clock sha256 calls) now :=
    exact_prune tracks fun moment member => latest moment member now List.mem_cons_self
  obtain ⟨minute,hour⟩ := run_limits clock sha256 (LoginRateLimiter.start perMinute perHour) calls
  rw [LoginRateLimiter.check, List.all_eq_true]
  refine forall₂_congr fun key _ => ?_
  rw [keyAllowed_iff exact]
  change Below clock (LoginRateLimiter.run clock sha256 _ calls).perMinute (LoginRateLimiter.run clock sha256 _ calls).perHour
    _ now key ↔ _
  rw [minute, hour]
  rfl

/-- A clock of whole seconds. -/
def seconds : Clock Int where
  back now seconds := now - seconds
  forward seconds _ _ order := Int.sub_le_sub_right order seconds
  longer now _ _ order := Int.sub_le_sub_left order now
  earlier now seconds positive := by omega

/-- A failure counts against an attempt a minute later only until then. -/
theorem login_throttled_boundary :
    (((LoginRateLimiter.start 1 50).run seconds id [.recordFailure 0 ['a'] ['u']]).check seconds id 60 ['a'] ['u']).1 = true ↔
      ∀ key ∈ keysOf id ['a'] ['u'], Below seconds 1 50 (recorded seconds id [.recordFailure 0 ['a'] ['u']]) 60 key :=
  login_throttled_iff seconds id 1 50 [.recordFailure 0 ['a'] ['u']] 60 ['a'] ['u'] (by decide)

/-! ### More failures than the limiter tracks -/

def History.stepAll {T : Type} (sha256 : Text → Text) (history : History T) : Call T → History T
  | .check _ _ _ => history
  | .recordFailure now source username =>
    (keysOf sha256 source username).foldl (fun history key => Function.update history key (history key ++ [now])) history
  | .clearUsername username => Function.update history (usernameKey sha256 username) []

/-- All failures of each key since it was cleared. -/
def failures {T : Type} (sha256 : Text → Text) (calls : List (Call T)) : History T :=
  calls.foldl (History.stepAll sha256) fun _ => []

/-- A name of its own for each number. -/
def nameOf (n : Nat) : Text := List.replicate n 'a'

/-- Failures of many sources and usernames, at one moment. -/
def crowd (n : Nat) : List (Call Int) := (List.range n).map fun i => .recordFailure 0 (nameOf i) (nameOf i)

def crowdKeys (n : Nat) : Finset Text :=
  (Finset.range n).image (fun i => sourceKey id (nameOf i)) ∪ (Finset.range n).image fun i => usernameKey id (nameOf i)

theorem source_ne_username (source username : Text) : sourceKey id source ≠ usernameKey id username := by
  intro same
  exact absurd (List.cons_eq_cons.mp same).1 (by decide)

theorem nameOf_injective : Function.Injective nameOf := fun m n same => by
  simpa [nameOf] using congrArg List.length same

theorem sourceKey_injective : Function.Injective fun i => sourceKey id (nameOf i) :=
  fun _ _ same => nameOf_injective (List.append_cancel_left same)

theorem usernameKey_injective : Function.Injective fun i => usernameKey id (nameOf i) :=
  fun _ _ same => nameOf_injective (List.append_cancel_left same)

theorem crowdKeys_card (n : Nat) : (crowdKeys n).card = 2 * n := by
  have apart : Disjoint ((Finset.range n).image fun i => sourceKey id (nameOf i))
      ((Finset.range n).image fun i => usernameKey id (nameOf i)) := by
    rw [Finset.disjoint_left]
    intro key first second
    obtain ⟨i,_,rfl⟩ := Finset.mem_image.mp first
    obtain ⟨j,_,same⟩ := Finset.mem_image.mp second
    exact source_ne_username _ _ same.symm
  rw [crowdKeys, Finset.card_union_of_disjoint apart, Finset.card_image_of_injective _ sourceKey_injective,
    Finset.card_image_of_injective _ usernameKey_injective, Finset.card_range, two_mul]

/-- Each tracked key has failures, all of them at one moment. -/
def Fresh (attempts : Table Text Int) : Prop :=
  ∀ key ∈ attempts.keys, attempts.moments key ≠ [] ∧ ∀ moment ∈ attempts.moments key, moment = 0

theorem fresh_prune {attempts : Table Text Int} (fresh : Fresh attempts) :
    Fresh (attempts.prune (-3600)) ∧ (attempts.prune (-3600)).keys = attempts.keys := by
  have whole : ∀ key, (attempts.prune (-3600)).moments key = attempts.moments key := by
    intro key
    by_cases tracked : key ∈ attempts.keys
    · obtain ⟨present,zero⟩ := fresh key tracked
      cases moments : attempts.moments key with
      | nil => exact absurd moments present
      | cons moment rest =>
        rw [moments] at zero
        have now := zero moment List.mem_cons_self
        simp only [Table.prune, moments]
        rw [now]
        rfl
    · rw [attempts.absent key tracked]
      simp only [Table.prune, attempts.absent key tracked]
      rfl
  have keys : (attempts.prune (-3600)).keys = attempts.keys := by
    refine Finset.filter_eq_self.mpr fun key tracked => ?_
    have same := whole key
    simp only [Table.prune] at same
    rw [same]
    exact (fresh key tracked).1
  refine ⟨fun key tracked => ?_,keys⟩
  rw [whole]
  exact fresh key (keys ▸ tracked)

theorem fresh_record {attempts : Table Text Int} (fresh : Fresh attempts) (few : attempts.keys.card < MAX_TRACKED_KEYS)
    (key : Text) : Fresh (LoginRateLimiter.record attempts 0 key) ∧
      (LoginRateLimiter.record attempts 0 key).keys = insert key attempts.keys := by
  rw [LoginRateLimiter.record, if_neg fun full => absurd full.2 (not_le.mpr few)]
  refine ⟨fun other tracked => ?_,rfl⟩
  by_cases same : other = key
  · rw [same, Table.put_moments_self]
    refine ⟨by simp,fun moment member => ?_⟩
    rcases List.mem_append.mp member with before | last
    · by_cases known : key ∈ attempts.keys
      · exact (fresh key known).2 moment before
      · rw [attempts.absent key known] at before
        exact absurd before List.not_mem_nil
    · exact List.mem_singleton.mp last
  · rw [Table.put_moments_of_ne _ _ same]
    exact fresh other ((Finset.mem_insert.mp tracked).resolve_left same)

/-- As long as they fit, the limiter tracks the keys of all failures. -/
theorem crowd_tracked (n : Nat) (few : 2 * n ≤ MAX_TRACKED_KEYS) :
    Fresh ((LoginRateLimiter.start 1 50).run seconds id (crowd n)).attempts ∧
      ((LoginRateLimiter.start 1 50).run seconds id (crowd n)).attempts.keys = crowdKeys n := by
  induction n with
  | zero => exact ⟨fun _ tracked => absurd tracked (Finset.notMem_empty _),rfl⟩
  | succ n ih =>
    obtain ⟨fresh,keys⟩ := ih (by omega)
    obtain ⟨pruned,same⟩ := fresh_prune fresh
    rw [keys] at same
    have room := crowdKeys_card n
    obtain ⟨first,firstKeys⟩ := fresh_record pruned (by rw [same]; omega) (sourceKey id (nameOf n))
    rw [same] at firstKeys
    have grown := Finset.card_insert_le (sourceKey id (nameOf n)) (crowdKeys n)
    obtain ⟨second,secondKeys⟩ := fresh_record first (by rw [firstKeys]; omega) (usernameKey id (nameOf n))
    have last : (LoginRateLimiter.start 1 50).run seconds id (crowd (n + 1)) =
        ((LoginRateLimiter.start 1 50).run seconds id (crowd n)).recordFailure seconds id 0 (nameOf n) (nameOf n) := by
      rw [crowd, List.range_succ, List.map_append, LoginRateLimiter.run, List.foldl_append]
      rfl
    rw [last]
    refine ⟨second,secondKeys.trans ?_⟩
    rw [firstKeys, crowdKeys, crowdKeys, Finset.range_add_one, Finset.image_insert, Finset.image_insert,
      Finset.insert_union, Finset.union_insert, Finset.insert_comm]

theorem outside_crowd (n : Nat) : sourceKey id ['b'] ∉ crowdKeys n ∧ usernameKey id ['b'] ∉ crowdKeys n := by
  have other (i : Nat) : nameOf i ≠ ['b'] := by
    intro same
    have member : 'b' ∈ nameOf i := same ▸ List.mem_cons_self
    exact absurd (List.eq_of_mem_replicate member) (by decide)
  constructor
  all_goals
    intro inside
    rcases Finset.mem_union.mp inside with first | second
  · obtain ⟨i,_,same⟩ := Finset.mem_image.mp first
    exact other i (List.append_cancel_left same)
  · obtain ⟨i,_,same⟩ := Finset.mem_image.mp second
    exact source_ne_username _ _ same.symm
  · obtain ⟨i,_,same⟩ := Finset.mem_image.mp first
    exact source_ne_username _ _ same
  · obtain ⟨i,_,same⟩ := Finset.mem_image.mp second
    exact other i (List.append_cancel_left same)

/-- The failure of another source and username. -/
def late : Call Int := .recordFailure 0 ['b'] ['b']

theorem crowd_moments (n : Nat) : ∀ moment ∈ (crowd n ++ [late]).flatMap Call.moments ++ [0], moment = 0 := by
  intro moment member
  rcases List.mem_append.mp member with before | last
  · obtain ⟨call,inside,shown⟩ := List.mem_flatMap.mp before
    rcases List.mem_append.mp inside with one | other
    · obtain ⟨_,_,rfl⟩ := List.mem_map.mp one
      exact List.mem_singleton.mp shown
    · rw [List.mem_singleton.mp other] at shown
      exact List.mem_singleton.mp shown
  · exact List.mem_singleton.mp last

section
variable {n : Nat} (full : 2 * n = MAX_TRACKED_KEYS)
include full

theorem record_full {attempts : Table Text Int} (keys : attempts.keys = crowdKeys n) {key : Text}
    (outside : key ∉ crowdKeys n) : LoginRateLimiter.record attempts 0 key = attempts := by
  refine if_pos ⟨keys ▸ outside,?_⟩
  rw [keys, crowdKeys_card, full]

theorem late_unrecorded : Fresh ((LoginRateLimiter.start 1 50).run seconds id (crowd n ++ [late])).attempts ∧
    ((LoginRateLimiter.start 1 50).run seconds id (crowd n ++ [late])).attempts.keys = crowdKeys n := by
  obtain ⟨fresh,keys⟩ := crowd_tracked n full.le
  obtain ⟨pruned,same⟩ := fresh_prune fresh
  rw [keys] at same
  have first := record_full full same (outside_crowd n).1
  have second := record_full full same (outside_crowd n).2
  have last : ((LoginRateLimiter.start 1 50).run seconds id (crowd n ++ [late])).attempts =
      LoginRateLimiter.record (LoginRateLimiter.record (((LoginRateLimiter.start 1 50).run seconds id (crowd n)).attempts.prune
        (-3600)) 0 (sourceKey id ['b'])) 0 (usernameKey id ['b']) := by
    rw [LoginRateLimiter.run, List.foldl_append]
    rfl
  rw [last, first, second]
  exact ⟨pruned,same⟩

theorem late_allowed :
    (((LoginRateLimiter.start 1 50).run seconds id (crowd n ++ [late])).check seconds id 0 ['b'] ['b']).1 = true := by
  obtain ⟨fresh,keys⟩ := late_unrecorded full
  have same := (fresh_prune fresh).2.trans keys
  obtain ⟨minute,hour⟩ := run_limits seconds id (LoginRateLimiter.start 1 50) (crowd n ++ [late])
  have allowed (key : Text) (outside : key ∉ crowdKeys n) :
      (((LoginRateLimiter.start 1 50).run seconds id (crowd n ++ [late])).prune seconds 0).keyAllowed seconds key 0 = true := by
    have none := (((LoginRateLimiter.start 1 50).run seconds id (crowd n ++ [late])).attempts.prune (-3600)).absent key
      (same ▸ outside)
    refine keyAllowed_untried none ?_ ?_
    · exact minute.symm ▸ Int.one_pos
    · exact hour.symm ▸ (by decide : (0 : Int) < 50)
  rw [LoginRateLimiter.check, List.all_eq_true]
  intro key member
  rcases List.mem_pair.mp member with rfl | rfl
  · exact allowed _ (outside_crowd n).1
  · exact allowed _ (outside_crowd n).2

end

theorem late_failed (n : Nat) : ¬ Below seconds 1 50 (failures id (crowd n ++ [late])) 0 (sourceKey id ['b']) := by
  intro below
  have failed : failures id (crowd n ++ [late]) (sourceKey id ['b']) =
      failures id (crowd n) (sourceKey id ['b']) ++ [0] := by
    rw [failures, List.foldl_append]
    simp only [List.foldl_cons, List.foldl_nil, late, History.stepAll, keysOf]
    rw [Function.update_of_ne (source_ne_username _ _), Function.update_self]
    rfl
  have counted := below.1
  rw [failed, recent_append, List.length_append] at counted
  have one : (recent (seconds.back 0 60) [0]).length = 1 := rfl
  omega

/-- While 10,000 keys are tracked, the failure of another one is not recorded, and the attempt after it is allowed. -/
theorem crowded_out : ¬ ∀ (sha256 : Text → Text) (perMinute perHour : Int) (calls : List (Call Int)) (now : Int)
    (source username : Text), perMinute ≤ perHour → (calls.flatMap Call.moments ++ [now]).Pairwise (· ≤ ·) →
    ((((LoginRateLimiter.start perMinute perHour).run seconds sha256 calls).check seconds sha256 now source username).1 = true ↔
      ∀ key ∈ keysOf sha256 source username, Below seconds perMinute perHour (failures sha256 calls) now key) := by
  intro claim
  have forward : ((crowd 5000 ++ [late]).flatMap Call.moments ++ [0]).Pairwise (· ≤ ·) :=
    List.pairwise_of_forall_mem_list fun a first b second => by
      rw [crowd_moments 5000 a first, crowd_moments 5000 b second]
  have answer := claim id 1 50 (crowd 5000 ++ [late]) 0 ['b'] ['b'] (by decide) forward
  exact late_failed 5000 (answer.mp (late_allowed (by decide)) _ List.mem_cons_self)

/-! ### Operator requests -/

/-- `_MAX_BUCKETS` -/
def MAX_BUCKETS : Nat := 20000

/-- A call of the limiter, at the moment that the clock shows. -/
structure Consume (T : Type) where
  now : T
  action : Text
  actorId : Text
  limit : Int
  windowSeconds : Int

/-- `f"{action}:{actor_id}"` -/
def Consume.key {T : Type} (call : Consume T) : Text := call.action ++ ':' :: call.actorId

/-- The moments of the calls with a key. -/
def timesOf {T : Type} (calls : List (Consume T)) (key : Text) : List T :=
  (calls.filter fun call => call.key == key).map Consume.now

/-- The keys with a call among these. -/
def keysIn {T : Type} (calls : List (Consume T)) : Set Text := {key | timesOf calls key ≠ []}

section
variable {T : Type}

theorem timesOf_snoc (calls : List (Consume T)) (call : Consume T) (key : Text) :
    timesOf (calls ++ [call]) key = timesOf calls key ++ if call.key = key then [call.now] else [] := by
  rw [timesOf, List.filter_append, List.map_append]
  by_cases same : call.key = key
  · rw [if_pos same, List.filter_singleton, beq_iff_eq.mpr same]
    rfl
  · rw [if_neg same, List.filter_singleton, beq_eq_false_iff_ne.mpr same]
    rfl

theorem timesOf_sublist (calls : List (Consume T)) (key : Text) : (timesOf calls key).Sublist (calls.map Consume.now) :=
  List.filter_sublist.map _

theorem timesOf_eq_append {calls : List (Consume T)} {key : Text} {before after : List T} {now : T}
    (equal : timesOf calls key = before ++ now :: after) : ∃ front call rest, calls = front ++ call :: rest ∧
      call.key = key ∧ timesOf front key = before ∧ call.now = now := by
  obtain ⟨first,second,split,passed,shown⟩ := List.map_eq_append_iff.mp equal
  obtain ⟨call,others,rfl,now,_⟩ := List.map_eq_cons_iff.mp shown
  obtain ⟨front,rest,rfl,rfl,left⟩ := List.filter_eq_append_iff.mp split
  obtain ⟨between,behind,rfl,other,same,_⟩ := List.filter_eq_cons_iff.mp left
  refine ⟨front ++ between,call,behind,by simp,eq_of_beq same,?_,now⟩
  have none : between.filter (fun call => call.key == key) = [] := List.filter_eq_nil_iff.mpr other
  rw [timesOf, List.filter_append, none, List.append_nil, passed]

end

section
variable {T : Type} [LinearOrder T] (clock : Clock T)

/-- `AbuseRateLimiter.consume` -/
def consume (events : Table Text T) (call : Consume T) : Bool × Table Text T :=
  if call.key ∉ events.keys ∧ MAX_BUCKETS ≤ events.keys.card then (false,events)
  else
    let left := (events.moments call.key).dropWhile fun moment => moment ≤ clock.back call.now call.windowSeconds
    if call.limit ≤ (left.length : Int) then (false,events.put call.key left)
    else (true,events.put call.key (left ++ [call.now]))

/-- The accepted calls so far, and the events that the limiter keeps. -/
def serve (served : List (Consume T) × Table Text T) (call : Consume T) : List (Consume T) × Table Text T :=
  (if (consume clock served.2 call).1 then served.1 ++ [call] else served.1,(consume clock served.2 call).2)

def serveAll (calls : List (Consume T)) : List (Consume T) × Table Text T := calls.foldl (serve clock) ([],.empty)

/-- The calls that are accepted. -/
def accepted (calls : List (Consume T)) : List (Consume T) := (serveAll clock calls).1

/-- Whether the call after these ones is accepted. -/
def accepts (calls : List (Consume T)) (call : Consume T) : Bool := (consume clock (serveAll clock calls).2 call).1

/-- Events that tell the same as the accepted calls in every window to come, and track the keys that have one. -/
structure Keeps (calls served : List (Consume T)) (events : Table Text T) : Prop where
  among : served.Sublist calls
  keys : ∀ key, key ∈ events.keys ↔ key ∈ keysIn served
  kept : ∀ key, (events.moments key).Sublist (timesOf served key)
  agree : ∀ key cutoff, (∀ call ∈ calls, call.key = key → clock.back call.now call.windowSeconds ≤ cutoff) →
    recent cutoff (events.moments key) = recent cutoff (timesOf served key)
  found : ∀ front call rest, served = front ++ call :: rest →
    ((recent (clock.back call.now call.windowSeconds) (timesOf front call.key)).length : Int) < call.limit

variable {clock}

theorem keeps_nil : Keeps clock ([] : List (Consume T)) [] .empty where
  among := .slnil
  keys key := iff_of_false (Finset.notMem_empty key) fun present => present rfl
  kept _ := .slnil
  agree _ _ _ := rfl
  found front call rest equal := absurd equal.symm (List.append_ne_nil_of_right_ne_nil front (List.cons_ne_nil call rest))

/-- A call that comes after others, with the limit and the window that its key has had. -/
structure Follows (calls : List (Consume T)) (call : Consume T) : Prop where
  ordered : (calls.map Consume.now).Pairwise (· ≤ ·)
  latest : ∀ earlier ∈ calls, earlier.now ≤ call.now
  settled : ∀ earlier ∈ calls, earlier.key = call.key → earlier.windowSeconds = call.windowSeconds
  positive : 1 ≤ call.limit

/-- The accepted moments in the window that ends at a call. -/
def liveAt (clock : Clock T) (served : List (Consume T)) (call : Consume T) : List T :=
  recent (clock.back call.now call.windowSeconds) (timesOf served call.key)

variable {calls served : List (Consume T)} {events : Table Text T} {call : Consume T}

theorem left_live (keeps : Keeps clock calls served events) (follows : Follows calls call) :
    (events.moments call.key).dropWhile (fun moment => moment ≤ clock.back call.now call.windowSeconds) =
      liveAt clock served call := by
  have ordered : (events.moments call.key).Pairwise (· ≤ ·) :=
    (follows.ordered.sublist ((timesOf_sublist served call.key).trans (keeps.among.map _))).sublist (keeps.kept call.key)
  rw [dropWhile_recent ordered]
  refine keeps.agree call.key _ fun earlier member same => ?_
  rw [follows.settled earlier member same]
  exact clock.forward _ (follows.latest earlier member)

theorem keysIn_eq (keeps : Keeps clock calls served events) : keysIn served = events.keys :=
  Set.ext fun key => (keeps.keys key).symm

/-- A call is refused exactly if its window is full, or its key is new and no further one can be tracked. -/
theorem refused_iff (keeps : Keeps clock calls served events) (follows : Follows calls call) :
    (consume clock events call).1 = false ↔ call.limit ≤ ((liveAt clock served call).length : Int) ∨
      (call.key ∉ keysIn served ∧ (MAX_BUCKETS : ℕ∞) ≤ (keysIn served).encard) := by
  rw [consume, left_live keeps follows, keysIn_eq keeps, Set.encard_coe_eq_coe_finsetCard, Finset.mem_coe, Nat.cast_le]
  by_cases crowded : call.key ∉ events.keys ∧ MAX_BUCKETS ≤ events.keys.card
  · rw [if_pos crowded]
    exact iff_of_true rfl (.inr crowded)
  · rw [if_neg crowded]
    by_cases full : call.limit ≤ ((liveAt clock served call).length : Int)
    · rw [if_pos full]
      exact iff_of_true rfl (.inl full)
    · rw [if_neg full]
      exact iff_of_false nofun fun refused => refused.elim full crowded

theorem agree_later (keeps : Keeps clock calls served events) (key : Text) (cutoff : T)
    (order : ∀ earlier ∈ calls ++ [call], earlier.key = key → clock.back earlier.now earlier.windowSeconds ≤ cutoff) :
    recent cutoff (events.moments key) = recent cutoff (timesOf served key) :=
  keeps.agree key cutoff fun earlier member => order earlier (List.mem_append_left _ member)

theorem live_later (cutoff : T)
    (order : ∀ earlier ∈ calls ++ [call], earlier.key = call.key → clock.back earlier.now earlier.windowSeconds ≤ cutoff) :
    recent cutoff (liveAt clock served call) = recent cutoff (timesOf served call.key) :=
  recent_recent (order call (List.mem_append_right _ List.mem_cons_self) rfl) _

/-- A refused call leaves the windows as they are. -/
theorem keeps_refused (keeps : Keeps clock calls served events) (follows : Follows calls call)
    (full : call.limit ≤ ((liveAt clock served call).length : Int)) :
    Keeps clock (calls ++ [call]) served (events.put call.key (liveAt clock served call)) := by
  have present : timesOf served call.key ≠ [] := by
    intro none
    rw [liveAt, none, recent_nil, List.length_nil] at full
    have positive := follows.positive
    omega
  refine ⟨keeps.among.trans (List.sublist_append_left ..),fun key => ?_,fun key => ?_,fun key cutoff order => ?_,keeps.found⟩
  · rw [Table.put_keys, Finset.insert_eq_of_mem ((keeps.keys _).mpr present)]
    exact keeps.keys key
  · by_cases same : key = call.key
    · rw [same, Table.put_moments_self]
      exact List.filter_sublist
    · rw [Table.put_moments_of_ne _ _ same]
      exact keeps.kept key
  · by_cases same : key = call.key
    · subst same
      rw [Table.put_moments_self]
      exact live_later cutoff order
    · rw [Table.put_moments_of_ne _ _ same]
      exact agree_later keeps key cutoff order

/-- An accepted call found room in its window. -/
theorem keeps_accepted (keeps : Keeps clock calls served events)
    (room : ((liveAt clock served call).length : Int) < call.limit) :
    Keeps clock (calls ++ [call]) (served ++ [call]) (events.put call.key (liveAt clock served call ++ [call.now])) := by
  refine ⟨keeps.among.append (.refl _),fun key => ?_,fun key => ?_,fun key cutoff order => ?_,fun front earlier rest equal => ?_⟩
  · rw [keysIn, Set.mem_ofPred_eq, timesOf_snoc, Table.put_keys, Finset.mem_insert]
    by_cases same : key = call.key
    · rw [if_pos same.symm]
      exact iff_of_true (.inl same) (by simp)
    · rw [if_neg (Ne.symm same), List.append_nil]
      exact ⟨fun tracked => (keeps.keys key).mp (tracked.resolve_left same),fun known => .inr ((keeps.keys key).mpr known)⟩
  · rw [timesOf_snoc]
    by_cases same : key = call.key
    · subst same
      rw [Table.put_moments_self, if_pos rfl]
      exact List.filter_sublist.append (.refl _)
    · rw [Table.put_moments_of_ne _ _ same, if_neg (Ne.symm same), List.append_nil]
      exact keeps.kept key
  · rw [timesOf_snoc]
    by_cases same : key = call.key
    · subst same
      rw [Table.put_moments_self, if_pos rfl, recent_append, recent_append, live_later cutoff order]
    · rw [Table.put_moments_of_ne _ _ same, if_neg (Ne.symm same), List.append_nil]
      exact agree_later keeps key cutoff order
  · rcases List.eq_nil_or_concat rest with rfl | ⟨inner,last,rfl⟩
    · obtain ⟨rfl,one⟩ := List.append_inj' equal rfl
      cases one
      exact room
    · have split : served ++ [call] = (front ++ earlier :: inner) ++ [last] := by
        rw [equal, List.concat_eq_append, List.append_assoc, List.cons_append]
      exact keeps.found front earlier inner (List.append_inj' split rfl).1

theorem keeps_serve (keeps : Keeps clock calls served events) (follows : Follows calls call) :
    Keeps clock (calls ++ [call]) (serve clock (served,events) call).1 (serve clock (served,events) call).2 := by
  by_cases crowded : call.key ∉ events.keys ∧ MAX_BUCKETS ≤ events.keys.card
  · simp only [serve, consume, if_pos crowded]
    exact ⟨keeps.among.trans (List.sublist_append_left ..),keeps.keys,keeps.kept,
      fun key cutoff order => agree_later keeps key cutoff order,keeps.found⟩
  · by_cases full : call.limit ≤ ((liveAt clock served call).length : Int)
    · simp only [serve, consume, if_neg crowded, left_live keeps follows, if_pos full]
      exact keeps_refused keeps follows full
    · simp only [serve, consume, if_neg crowded, left_live keeps follows, if_neg full]
      exact keeps_accepted keeps (not_le.mp full)

end

section
variable {T : Type} [LinearOrder T]

/-- Calls in order, each key with one limit and one window. -/
structure Regular (calls : List (Consume T)) : Prop where
  forward : (calls.map Consume.now).Pairwise (· ≤ ·)
  settled : ∀ one ∈ calls, ∀ other ∈ calls, one.key = other.key →
    one.limit = other.limit ∧ one.windowSeconds = other.windowSeconds
  positive : ∀ call ∈ calls, 1 ≤ call.limit

theorem Regular.follows {before : List (Consume T)} {call : Consume T} {after : List (Consume T)}
    (regular : Regular (before ++ call :: after)) : Regular before ∧ Follows before call := by
  have inside : call ∈ before ++ call :: after := by simp
  have orders := regular.forward
  rw [List.map_append, List.pairwise_append] at orders
  refine ⟨⟨orders.1,fun one first other second => ?_,fun one member => ?_⟩,⟨orders.1,fun earlier member => ?_,
    fun earlier member same => ?_,regular.positive call inside⟩⟩
  · exact regular.settled one (List.mem_append_left _ first) other (List.mem_append_left _ second)
  · exact regular.positive one (List.mem_append_left _ member)
  · exact orders.2.2 _ (List.mem_map_of_mem member) _ List.mem_cons_self
  · exact (regular.settled earlier (List.mem_append_left _ member) call inside same).2

theorem keeps_serveAll (clock : Clock T) {calls : List (Consume T)} (regular : Regular calls) :
    Keeps clock calls (serveAll clock calls).1 (serveAll clock calls).2 := by
  induction calls using List.reverseRecOn with
  | nil => exact keeps_nil
  | append_singleton before call ih =>
    obtain ⟨earlier,follows⟩ := regular.follows
    rw [serveAll, List.foldl_append]
    exact keeps_serve (ih earlier) follows

/-- No window holds more accepted calls of a key than its limit. -/
theorem accepted_within (clock : Clock T) {calls : List (Consume T)} (regular : Regular calls) {call : Consume T}
    (member : call ∈ calls) (t : T) :
    ((within clock call.windowSeconds t (timesOf (accepted clock calls) call.key)).length : Int) ≤ call.limit := by
  have keeps : Keeps clock calls (accepted clock calls) (serveAll clock calls).2 := keeps_serveAll clock regular
  have ordered := regular.forward.sublist ((timesOf_sublist _ call.key).trans (keeps.among.map _))
  refine within_length_le clock call.windowSeconds call.limit ordered (fun before now after equal => ?_)
    (zero_le_one.trans (regular.positive call member)) t
  obtain ⟨front,earlier,rest,parted,same,passed,shown⟩ := timesOf_eq_append equal
  have listed : earlier ∈ accepted clock calls := by
    rw [parted]
    exact List.mem_append_right _ List.mem_cons_self
  have inside := keeps.among.subset listed
  obtain ⟨limit,window⟩ := regular.settled earlier inside call member same
  have room := keeps.found front earlier rest parted
  rwa [same, passed, shown, limit, window] at room

/-- No window holds more accepted calls of a key than its limit; and a call is refused exactly if the window that ends at it
    is full of accepted ones, or its key is new and 20,000 keys have an accepted call. -/
theorem operator_windows_exact (clock : Clock T) (calls : List (Consume T)) (regular : Regular calls) :
    (∀ call ∈ calls, ∀ t,
      ((within clock call.windowSeconds t (timesOf (accepted clock calls) call.key)).length : Int) ≤ call.limit) ∧
    ∀ before call after, calls = before ++ call :: after → (accepts clock before call = false ↔
      call.limit ≤ ((liveAt clock (accepted clock before) call).length : Int) ∨
        (call.key ∉ keysIn (accepted clock before) ∧ (MAX_BUCKETS : ℕ∞) ≤ (keysIn (accepted clock before)).encard)) := by
  refine ⟨fun call member t => accepted_within clock regular member t,fun before call after equal => ?_⟩
  subst equal
  obtain ⟨earlier,follows⟩ := regular.follows
  exact refused_iff (keeps_serveAll clock earlier) follows

end

/-- Two calls of one key, a minute apart. -/
def minuteApart : List (Consume Int) := [⟨0,lit "scan_list",['u'],1,60⟩,⟨60,lit "scan_list",['u'],1,60⟩]

theorem operator_windows_minute :
    (∀ call ∈ minuteApart, ∀ t,
      ((within seconds call.windowSeconds t (timesOf (accepted seconds minuteApart) call.key)).length : Int) ≤ call.limit) ∧
    ∀ before call after, minuteApart = before ++ call :: after → (accepts seconds before call = false ↔
      call.limit ≤ ((liveAt seconds (accepted seconds before) call).length : Int) ∨
        (call.key ∉ keysIn (accepted seconds before) ∧ (MAX_BUCKETS : ℕ∞) ≤ (keysIn (accepted seconds before)).encard)) :=
  operator_windows_exact seconds minuteApart ⟨by decide,by decide,by decide⟩

/-- The accepted calls of an action and an actor. -/
def callsOf {T : Type} (calls : List (Consume T)) (action actorId : Text) : List T :=
  (calls.filter fun call => call.action == action && call.actorId == actorId).map Consume.now

section
variable {T : Type} [LinearOrder T]

/-- Calls in order of actions without a colon, each with one limit and one window. -/
structure Plain (calls : List (Consume T)) : Prop where
  forward : (calls.map Consume.now).Pairwise (· ≤ ·)
  plain : ∀ call ∈ calls, ':' ∉ call.action
  settled : ∀ one ∈ calls, ∀ other ∈ calls, one.action = other.action →
    one.limit = other.limit ∧ one.windowSeconds = other.windowSeconds
  positive : ∀ call ∈ calls, 1 ≤ call.limit

omit [LinearOrder T] in
theorem action_of_key {call : Consume T} (plain : ':' ∉ call.action) : call.key.takeWhile (· ≠ ':') = call.action := by
  have named : ∀ c ∈ call.action, decide (c ≠ ':') = true := fun c member =>
    decide_eq_true fun colon => plain (colon ▸ member)
  rw [Consume.key, List.takeWhile_append_of_pos named, List.takeWhile_cons_of_neg (by decide), List.append_nil]

omit [LinearOrder T] in
/-- The key of such an action names it and the actor. -/
theorem key_eq_iff {one other : Consume T} (plain : ':' ∉ one.action) (plain' : ':' ∉ other.action) :
    one.key = other.key ↔ one.action = other.action ∧ one.actorId = other.actorId := by
  constructor
  · intro same
    have action : one.action = other.action := by
      rw [← action_of_key plain, ← action_of_key plain', same]
    rw [Consume.key, Consume.key, action] at same
    exact ⟨action,List.cons_inj_right _ |>.mp (List.append_cancel_left same)⟩
  · rintro ⟨action,actor⟩
    rw [Consume.key, Consume.key, action, actor]

theorem Plain.regular {calls : List (Consume T)} (plain : Plain calls) : Regular calls := by
  refine ⟨plain.forward,fun one first other second same => ?_,plain.positive⟩
  have named := (key_eq_iff (plain.plain one first) (plain.plain other second)).mp same
  exact plain.settled one first other second named.1

omit [LinearOrder T] in
theorem timesOf_key {calls : List (Consume T)} {call : Consume T} (plain : ∀ other ∈ calls, ':' ∉ other.action)
    (plain' : ':' ∉ call.action) : timesOf calls call.key = callsOf calls call.action call.actorId := by
  rw [timesOf, callsOf]
  congr 1
  refine List.filter_congr fun other member => ?_
  rw [Bool.eq_iff_iff, Bool.and_eq_true, beq_iff_eq, beq_iff_eq, beq_iff_eq]
  exact key_eq_iff (plain other member) plain'

/-- For actions without a colon the windows are those of each action and actor. -/
theorem action_windows_exact (clock : Clock T) {calls : List (Consume T)} (plain : Plain calls) :
    (∀ call ∈ calls, ∀ t, ((within clock call.windowSeconds t
      (callsOf (accepted clock calls) call.action call.actorId)).length : Int) ≤ call.limit) ∧
    ∀ before call after, calls = before ++ call :: after → (accepts clock before call = false ↔
      call.limit ≤ ((recent (clock.back call.now call.windowSeconds)
        (callsOf (accepted clock before) call.action call.actorId)).length : Int) ∨
        (callsOf (accepted clock before) call.action call.actorId = [] ∧
          (MAX_BUCKETS : ℕ∞) ≤ (keysIn (accepted clock before)).encard)) := by
  have among {served : List (Consume T)} (regular : Regular served) :
      (accepted clock served).Sublist served := (keeps_serveAll clock regular).among
  constructor
  · intro call member t
    rw [← timesOf_key (fun other listed => plain.plain other ((among plain.regular).subset listed))
      (plain.plain call member)]
    exact accepted_within clock plain.regular member t
  · intro before call after equal
    subst equal
    obtain ⟨earlier,follows⟩ := plain.regular.follows
    have inside : ':' ∉ call.action := plain.plain call (by simp)
    have outside : ∀ other ∈ accepted clock before, ':' ∉ other.action := fun other listed =>
      plain.plain other (List.mem_append_left _ ((among earlier).subset listed))
    have fresh : call.key ∉ keysIn (accepted clock before) ↔ timesOf (accepted clock before) call.key = [] := not_not
    have refused : accepts clock before call = false ↔
        call.limit ≤ ((liveAt clock (accepted clock before) call).length : Int) ∨
          (call.key ∉ keysIn (accepted clock before) ∧ (MAX_BUCKETS : ℕ∞) ≤ (keysIn (accepted clock before)).encard) :=
      refused_iff (keeps_serveAll clock earlier) follows
    rw [refused, fresh, liveAt, timesOf_key outside inside]

end

/-- With a colon in an action, the calls of another action and actor empty its window. -/
def colons : List (Consume Int) :=
  [⟨0,lit "x:y",['z'],2,100⟩,⟨0,lit "x:y",['z'],2,100⟩,⟨50,['x'],lit "y:z",2,1⟩,⟨51,lit "x:y",['z'],2,100⟩]

theorem colons_collide : ¬ ∀ calls : List (Consume Int), (calls.map Consume.now).Pairwise (· ≤ ·) →
    (∀ one ∈ calls, ∀ other ∈ calls, one.action = other.action →
      one.limit = other.limit ∧ one.windowSeconds = other.windowSeconds) →
    (∀ call ∈ calls, 1 ≤ call.limit) →
    (∀ call ∈ calls, ∀ t, ((within seconds call.windowSeconds t
      (callsOf (accepted seconds calls) call.action call.actorId)).length : Int) ≤ call.limit) ∧
    ∀ before call after, calls = before ++ call :: after → accepts seconds before call = false →
      call.limit ≤ ((recent (seconds.back call.now call.windowSeconds)
        (callsOf (accepted seconds before) call.action call.actorId)).length : Int) ∨
        (callsOf (accepted seconds before) call.action call.actorId = [] ∧
          (MAX_BUCKETS : ℕ∞) ≤ (keysIn (accepted seconds before)).encard) := by
  intro claim
  have few := (claim colons (by decide) (by decide) (by decide)).1 ⟨51,lit "x:y",['z'],2,100⟩ (by simp [colons]) 51
  exact absurd few (by decide)

end DocGuard.RateLimits
