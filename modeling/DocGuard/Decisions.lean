import DocGuard.Engine
import DocGuard.Findings

/-!
What the shipped policy decides. The decision, the score and the release are
stated from the findings of a result and the tables of the registry alone; the
evaluation is shown to return with exactly these.
-/
namespace DocGuard.Decisions
open DocGuard.Ordered DocGuard.Checks DocGuard.Contract DocGuard.Domain DocGuard.Registry DocGuard.Engine
open DocGuard.Findings (findingPayload)
open DocGuard.Sha256 (sha256)

/-! ### What a result asks for -/

/-- A finding with this code is among the findings of the result. -/
def Present (result : Option AnalysisResult) (code : Text) : Prop :=
  ∃ r, result = some r ∧ ∃ f ∈ r.findings, f.code = code

/-- A compound whose findings are all present. -/
def Triggered (result : Option AnalysisResult) (c : CompoundPolicy) : Prop :=
  c ∈ shippedCompounds ∧ ∀ code ∈ c.requiredFindings, Present result code

def HardBlocked (result : Option AnalysisResult) : Prop :=
  ∃ p ∈ shippedPolicies, p.hardBlock = true ∧ Present result p.findingCode

/-- A present finding or a triggered compound has a QUARANTINE floor. -/
def Floored (result : Option AnalysisResult) : Prop :=
  (∃ p ∈ shippedPolicies, p.minimumDecision = some .QUARANTINE ∧ Present result p.findingCode) ∨
  ∃ c, Triggered result c ∧ c.minimumDecision = some .QUARANTINE

/-- A result that gives no complete analysis of a content that may be released. -/
def IncompleteResult (result : Option AnalysisResult) : Prop :=
  match result with
  | none => True
  | some r => r.status ≠ .SUCCESS ∨ (∀ t ∈ supportedReleaseTypes, r.detectedType ≠ some t) ∨
      (r.status = .SUCCESS ∧ ∃ code, Present result code ∧ partialCode code = true)

def Incomplete (result : Option AnalysisResult) (failureCode : Option Text) (scanState : ScanState) : Prop :=
  IncompleteResult result ∨ failureCode ≠ none ∨ (scanState ≠ .ANALYZING ∧ scanState ≠ .COMPLETED)

/-- What an evaluation says, from its result, failure code and scan state. -/
structure Decided (result : Option AnalysisResult) (failureCode : Option Text) (scanState : ScanState)
    (e : EvaluationFields) : Prop where
  block : e.decision = .BLOCK ↔ HardBlocked result
  quarantine : e.decision = .QUARANTINE ↔
    ¬HardBlocked result ∧ (Incomplete result failureCode scanState ∨ Floored result ∨ 40 ≤ e.riskScore)
  review : e.decision = .REVIEW ↔ ¬HardBlocked result ∧
    ¬(Incomplete result failureCode scanState ∨ Floored result ∨ 40 ≤ e.riskScore) ∧ 20 ≤ e.riskScore
  allow : e.decision = .ALLOW ↔ ¬HardBlocked result ∧
    ¬(Incomplete result failureCode scanState ∨ Floored result ∨ 40 ≤ e.riskScore) ∧ ¬20 ≤ e.riskScore
  listedOnce : (e.contributions.map (·.code)).Nodup
  listed : ∀ c, c ∈ e.contributions ↔
    (∃ p ∈ shippedPolicies, Present result p.findingCode ∧ c = findingContribution p) ∨
    ∃ k, Triggered result k ∧ c = compoundContribution k
  score : e.riskScore = min 100 (e.contributions.map (·.contribution)).sum
  release : e.releaseEligible = true ↔ e.decision = .ALLOW
  complete : e.analysisComplete = true ↔ ¬Incomplete result failureCode scanState

/-! ### The shipped tables -/

theorem mem_findingCodes {result : Option AnalysisResult} {code : Text} :
    code ∈ findingCodes result ↔ Present result code := by
  cases result with
  | none => simp [findingCodes,Present]
  | some r => simp [findingCodes,Present,mem_sortedSet]

theorem present_known {result : Option AnalysisResult} {code : Text} (present : Present result code) :
    code ∈ knownCodes := by
  obtain ⟨r,_,f,member,rfl⟩ := present
  exact r.code_known member

theorem findingPolicy_some {reg : PolicyRegistry} {code : Text} {p : FindingPolicy}
    (found : reg.findingPolicy code = some p) : p ∈ reg.policies ∧ p.findingCode = code := by
  refine ⟨?_,by simpa using List.find?_some found⟩
  exact List.mem_reverse.mp (List.mem_of_find?_eq_some found)

theorem findingPolicy_isSome {reg : PolicyRegistry} {code : Text} (covered : code ∈ reg.codes) :
    (reg.findingPolicy code).isSome := by
  obtain ⟨p,member,same⟩ := List.mem_map.mp covered
  rw [PolicyRegistry.findingPolicy,List.find?_isSome]
  exact ⟨p,List.mem_reverse.mpr member,by simpa using same⟩

/-- With distinct codes the lookup of a code gives the policy listed under it. -/
theorem findingPolicy_listed {reg : PolicyRegistry} (distinct : reg.codes.Nodup) {p : FindingPolicy}
    (member : p ∈ reg.policies) : reg.findingPolicy p.findingCode = some p := by
  obtain ⟨q,found⟩ := Option.isSome_iff_exists.mp (findingPolicy_isSome (List.mem_map_of_mem member))
  obtain ⟨listed,same⟩ := findingPolicy_some found
  rw [found,List.inj_on_of_nodup_map distinct listed member same]

theorem shipped_codes_nodup : shipped.codes.Nodup := shipped_codes ▸ knownCodes_nodup

theorem mem_policiesOf {result : Option AnalysisResult} {p : FindingPolicy} :
    p ∈ policiesOf shipped (findingCodes result) ↔ p ∈ shippedPolicies ∧ Present result p.findingCode := by
  simp only [policiesOf,List.mem_filterMap,mem_findingCodes]
  constructor
  · rintro ⟨code,present,found⟩
    obtain ⟨member,rfl⟩ := findingPolicy_some found
    exact ⟨member,present⟩
  · rintro ⟨member,present⟩
    exact ⟨p.findingCode,present,findingPolicy_listed shipped_codes_nodup member⟩

theorem mem_triggeredCompounds {result : Option AnalysisResult} {c : CompoundPolicy} :
    c ∈ triggeredCompounds shipped (findingCodes result) ↔ Triggered result c := by
  simp [triggeredCompounds,Triggered,shipped,List.subset_def,mem_findingCodes]

/-- The codes of the policies of some known codes are these codes. -/
theorem policiesOf_codes {codes : List Text} (known : ∀ code ∈ codes, code ∈ knownCodes) :
    (policiesOf shipped codes).map (·.findingCode) = codes := by
  induction codes with
  | nil => rfl
  | cons code rest ih =>
    have covered : code ∈ shipped.codes := shipped_codes ▸ known code List.mem_cons_self
    obtain ⟨p,found⟩ := Option.isSome_iff_exists.mp (findingPolicy_isSome covered)
    have later := ih (fun c member => known c (List.mem_cons_of_mem _ member))
    simp only [policiesOf,List.filterMap_cons,found,List.map_cons,(findingPolicy_some found).2]
    exact congrArg _ later

theorem findingCodes_increasing (result : Option AnalysisResult) : (findingCodes result).Pairwise (· < ·) := by
  cases result with
  | none => exact List.Pairwise.nil
  | some r => exact sortedSet_increasing _

theorem findingCodes_known {result : Option AnalysisResult} : ∀ code ∈ findingCodes result, code ∈ knownCodes :=
  fun _ member => present_known (mem_findingCodes.mp member)

theorem findingCodes_length (result : Option AnalysisResult) : (findingCodes result).length ≤ 45 := by
  have distinct := increasing_nodup (findingCodes_increasing result)
  exact (distinct.subperm findingCodes_known).length_le

section Precedence
variable {hardBlock mandatory : List Text} {riskScore : Int}

theorem decisionOf_block : decisionOf hardBlock mandatory riskScore = .BLOCK ↔ hardBlock ≠ [] := by
  unfold decisionOf
  split_ifs <;> simp_all

theorem decisionOf_quarantine : decisionOf hardBlock mandatory riskScore = .QUARANTINE ↔
    ¬hardBlock ≠ [] ∧ (mandatory ≠ [] ∨ 40 ≤ riskScore) := by
  unfold decisionOf
  split_ifs <;> simp_all

theorem decisionOf_review : decisionOf hardBlock mandatory riskScore = .REVIEW ↔
    ¬hardBlock ≠ [] ∧ ¬(mandatory ≠ [] ∨ 40 ≤ riskScore) ∧ 20 ≤ riskScore := by
  unfold decisionOf
  split_ifs <;> simp_all

theorem decisionOf_allow : decisionOf hardBlock mandatory riskScore = .ALLOW ↔
    ¬hardBlock ≠ [] ∧ ¬(mandatory ≠ [] ∨ 40 ≤ riskScore) ∧ ¬20 ≤ riskScore := by
  unfold decisionOf
  split_ifs <;> simp_all

end Precedence

/-! ### The parts of an evaluation -/

section Parts
variable (result : Option AnalysisResult)

theorem policiesOf_nodup : ((policiesOf shipped (findingCodes result)).map (·.findingCode)).Nodup := by
  rw [policiesOf_codes findingCodes_known]
  exact increasing_nodup (findingCodes_increasing result)

theorem policiesOf_length : (policiesOf shipped (findingCodes result)).length ≤ 45 := by
  have codes : ((policiesOf shipped (findingCodes result)).map (·.findingCode)).length = (findingCodes result).length :=
    congrArg List.length (policiesOf_codes findingCodes_known)
  rw [List.length_map] at codes
  exact codes ▸ findingCodes_length result

/-- What holds of every row of the shipped tables, and how many rows force a decision. -/
theorem shipped_rows :
    (∀ p ∈ shippedPolicies, 0 ≤ p.contribution ∧ validateContribution (findingContribution p) = .ok () ∧
      validateReason ⟨p.findingCode,p.explanation⟩ = .ok ()) ∧
    (∀ k ∈ shippedCompounds, k.name ∉ knownCodes ∧ 0 ≤ k.contribution ∧
      validateContribution (compoundContribution k) = .ok () ∧ validateReason ⟨k.name,k.explanation⟩ = .ok ()) ∧
    (shippedCompounds.map (·.name)).Nodup ∧
    (sortedSet ((shippedPolicies.filter (·.hardBlock)).map (·.findingCode))).length = 6 ∧
    (shippedPolicies.filter (fun p => decide (p.minimumDecision = some .QUARANTINE))).length = 13 ∧
    POLICY_FINGERPRINT.length = 64 ∧ POLICY_FINGERPRINT.all lowerHex := by
  decide +kernel

theorem shippedPolicies_rows {p : FindingPolicy} (listed : p ∈ shippedPolicies) : 0 ≤ p.contribution ∧
    validateContribution (findingContribution p) = .ok () ∧ validateReason ⟨p.findingCode,p.explanation⟩ = .ok () :=
  shipped_rows.1 p listed

theorem shippedCompounds_rows {k : CompoundPolicy} (listed : k ∈ shippedCompounds) :
    k.name ∉ knownCodes ∧ 0 ≤ k.contribution ∧ validateContribution (compoundContribution k) = .ok () ∧
      validateReason ⟨k.name,k.explanation⟩ = .ok () :=
  shipped_rows.2.1 k listed

theorem triggeredNames_nodup : ((triggeredCompounds shipped (findingCodes result)).map (·.name)).Nodup :=
  shipped_rows.2.2.1.sublist (List.filter_sublist.map _)

theorem triggeredCompounds_length : (triggeredCompounds shipped (findingCodes result)).length ≤ 5 :=
  List.length_filter_le _ _

theorem mem_contributionsOf {c : PolicyContribution} :
    c ∈ contributionsOf shipped (findingCodes result) ↔
      (∃ p ∈ shippedPolicies, Present result p.findingCode ∧ c = findingContribution p) ∨
      ∃ k, Triggered result k ∧ c = compoundContribution k := by
  simp only [contributionsOf,mem_sortedBy,List.mem_append,List.mem_map,mem_policiesOf,mem_triggeredCompounds,
    and_assoc,eq_comm]

/-- Every distinct code and every triggered compound is listed once. -/
theorem contributionsOf_nodup : ((contributionsOf shipped (findingCodes result)).map (·.code)).Nodup := by
  rw [contributionsOf,((sortedBy_perm _ _).map _).nodup_iff,List.map_append,List.map_map,List.map_map]
  refine (policiesOf_nodup result).append (triggeredNames_nodup result) ?_
  intro name left right
  obtain ⟨p,listed,rfl⟩ := List.mem_map.mp left
  obtain ⟨c,triggered,same⟩ := List.mem_map.mp right
  have known := present_known (mem_policiesOf.mp listed).2
  have same : c.name = p.findingCode := same
  exact (shippedCompounds_rows (mem_triggeredCompounds.mp triggered).1).1 (same ▸ known)

theorem hardBlockReasonsOf_ne_nil : hardBlockReasonsOf shipped (findingCodes result) ≠ [] ↔ HardBlocked result := by
  simp only [ne_nil_iff_mem,hardBlockReasonsOf,mem_sortedBy,List.mem_map,List.mem_filter,mem_policiesOf,HardBlocked]
  constructor
  · rintro ⟨_,p,⟨⟨member,present⟩,hard⟩,_⟩
    exact ⟨p,member,hard,present⟩
  · rintro ⟨p,member,hard,present⟩
    exact ⟨p.findingCode,p,⟨⟨member,present⟩,hard⟩,rfl⟩

theorem mandatoryReasonsOf_ne_nil (completeness : List AnalysisReason) :
    mandatoryReasonsOf shipped (findingCodes result) completeness ≠ [] ↔ Floored result ∨ completeness ≠ [] := by
  simp only [ne_nil_iff_mem,mandatoryReasonsOf,mem_sortedSet,List.mem_append,List.mem_map,List.mem_filter,
    mem_policiesOf,mem_triggeredCompounds,Floored,decide_eq_true_eq]
  constructor
  · rintro ⟨_,(⟨p,⟨⟨member,present⟩,floor⟩,_⟩ | ⟨c,⟨triggered,floor⟩,_⟩) | ⟨reason,listed,_⟩⟩
    · exact .inl (.inl ⟨p,member,floor,present⟩)
    · exact .inl (.inr ⟨c,triggered,floor⟩)
    · exact .inr ⟨reason,listed⟩
  · rintro ((⟨p,member,floor,present⟩ | ⟨c,triggered,floor⟩) | ⟨reason,listed⟩)
    · exact ⟨_,.inl (.inl ⟨p,⟨⟨member,present⟩,floor⟩,rfl⟩)⟩
    · exact ⟨_,.inl (.inr ⟨c,⟨triggered,floor⟩,rfl⟩)⟩
    · exact ⟨_,.inr ⟨reason,listed,rfl⟩⟩

theorem supportedType_iff {detectedType : Option Text} :
    supportedType detectedType = true ↔ ∃ t ∈ supportedReleaseTypes, detectedType = some t := by
  cases detectedType <;> simp [supportedType]

theorem statusReason_nil {status : AnalysisStatus} : statusReason status = [] ↔ status = .SUCCESS := by
  cases status <;> simp [statusReason]

theorem resultReasons_ne_nil : resultReasons (findingCodes result) result ≠ [] ↔ IncompleteResult result := by
  cases result with
  | none => simp [resultReasons,IncompleteResult]
  | some r =>
    have partials : (findingCodes (some r)).any partialCode = true ↔
        ∃ code, Present (some r) code ∧ partialCode code = true := by
      simp only [List.any_eq_true,mem_findingCodes]
    simp only [resultReasons,IncompleteResult,ne_eq,List.append_eq_nil_iff,statusReason_nil,not_and_or,or_assoc,
      partials]
    refine or_congr Iff.rfl (or_congr ?_ ?_)
    · by_cases supported : supportedType r.detectedType = true
      · obtain ⟨t,listed,same⟩ := supportedType_iff.mp supported
        simp only [supported,if_true,not_true,false_iff,not_forall]
        exact ⟨t,listed,fun differs => differs same⟩
      · simp only [supported]
        refine iff_of_true (by simp) fun t listed same => supported (supportedType_iff.mpr ⟨t,listed,same⟩)
    · split <;> simp_all

theorem completenessReasons_ne_nil (failureCode : Option Text) (scanState : ScanState) :
    completenessReasons result failureCode scanState (findingCodes result) ≠ [] ↔
      Incomplete result failureCode scanState := by
  simp only [completenessReasons,Incomplete,ne_eq,List.append_eq_nil_iff,not_and_or,or_assoc]
  refine or_congr (resultReasons_ne_nil result) (or_congr ?_ ?_)
  · cases failureCode <;> simp
  · cases scanState <;> simp

theorem resultReasons_length (codes : List Text) : (resultReasons codes result).length ≤ 3 := by
  cases result with
  | none => simp [resultReasons]
  | some r =>
    have status : (statusReason r.status).length ≤ 1 := by cases r.status <;> simp [statusReason]
    simp only [resultReasons,List.length_append]
    split <;> split <;> simp <;> omega

theorem completenessReasons_length (failureCode : Option Text) (scanState : ScanState) (codes : List Text) :
    (completenessReasons result failureCode scanState codes).length ≤ 5 := by
  have three := resultReasons_length result codes
  simp only [completenessReasons,List.length_append]
  split <;> split <;> simp <;> omega

theorem riskScoreOf_range :
    0 ≤ riskScoreOf shipped (findingCodes result) ∧ riskScoreOf shipped (findingCodes result) ≤ 100 := by
  refine ⟨le_min (by decide) (List.sum_nonneg ?_),min_le_left _ _⟩
  intro n listed
  obtain ⟨c,among,rfl⟩ := List.mem_map.mp listed
  obtain ⟨p,member,_,rfl⟩ | ⟨k,triggered,rfl⟩ := (mem_contributionsOf result).mp among
  · exact (shippedPolicies_rows member).1
  · exact (shippedCompounds_rows triggered.1).2.1

/-! ### The checks of the models -/

theorem contributions_valid : ∀ c ∈ contributionsOf shipped (findingCodes result), validateContribution c = .ok () := by
  intro c listed
  obtain ⟨p,member,_,rfl⟩ | ⟨k,triggered,rfl⟩ := (mem_contributionsOf result).mp listed
  · exact (shippedPolicies_rows member).2.1
  · exact (shippedCompounds_rows triggered.1).2.2.1

theorem analysisReason_valid (r : AnalysisReason) : validateReason ⟨r.code,r.explanation⟩ = .ok () := by
  cases r <;> rfl

theorem reasons_valid (completeness : List AnalysisReason) :
    ∀ r ∈ decisionReasonsOf shipped (findingCodes result) completeness, validateReason r = .ok () := by
  intro r listed
  simp only [decisionReasonsOf,mem_sortedBy,List.mem_append,List.mem_map,mem_policiesOf,
    mem_triggeredCompounds] at listed
  obtain (⟨p,⟨member,_⟩,rfl⟩ | ⟨k,triggered,rfl⟩) | ⟨reason,_,rfl⟩ := listed
  · exact (shippedPolicies_rows member).2.2
  · exact (shippedCompounds_rows triggered.1).2.2.2
  · exact analysisReason_valid reason

theorem contributionsOf_length : (contributionsOf shipped (findingCodes result)).length ≤ 50 := by
  have policies := policiesOf_length result
  have compounds := triggeredCompounds_length result
  simp only [contributionsOf,sortedBy_length,List.length_append,List.length_map]
  omega

theorem decisionReasonsOf_length (completeness : List AnalysisReason) :
    (decisionReasonsOf shipped (findingCodes result) completeness).length ≤ 50 + completeness.length := by
  have policies := policiesOf_length result
  have compounds := triggeredCompounds_length result
  simp only [decisionReasonsOf,sortedBy_length,List.length_append,List.length_map]
  omega

theorem hardBlockReasonsOf_eq : hardBlockReasonsOf shipped (findingCodes result) =
    sortedSet (((policiesOf shipped (findingCodes result)).filter (·.hardBlock)).map (·.findingCode)) :=
  sortedBy_id ((policiesOf_nodup result).sublist (List.filter_sublist.map _))

/-- At most the hard blocks of the table are reported. -/
theorem hardBlockReasonsOf_length : (hardBlockReasonsOf shipped (findingCodes result)).length ≤ 6 := by
  have sub : (policiesOf shipped (findingCodes result)).filter (·.hardBlock) ⊆
      shippedPolicies.filter (·.hardBlock) := by
    intro p member
    obtain ⟨among,hard⟩ := List.mem_filter.mp member
    exact List.mem_filter.mpr ⟨(mem_policiesOf.mp among).1,hard⟩
  rw [hardBlockReasonsOf_eq]
  exact (sortedSet_length_le (List.map_subset _ sub)).trans shipped_rows.2.2.2.1.le

/-- The reasons that may force a quarantine: the floors of the tables and the reasons of an incomplete analysis. -/
def quarantineTable (completeness : List AnalysisReason) : List Text :=
  (shippedPolicies.filter (fun p => decide (p.minimumDecision = some .QUARANTINE))).map (·.findingCode) ++
    shippedCompounds.map (·.name) ++ completeness.map (·.code)

theorem mandatoryReasonsOf_length (completeness : List AnalysisReason) :
    (mandatoryReasonsOf shipped (findingCodes result) completeness).length ≤ 18 + completeness.length := by
  have table : (quarantineTable completeness).length = 18 + completeness.length := by
    simp only [quarantineTable,List.length_append,List.length_map,shipped_rows.2.2.2.2.1]
    rfl
  refine (sortedSet_length_le ?_).trans table.le
  refine List.append_subset.mpr ⟨List.append_subset.mpr ⟨?_,?_⟩,?_⟩
  · refine List.subset_append_of_subset_left _ (List.subset_append_of_subset_left _ (List.map_subset _ ?_))
    intro p member
    obtain ⟨among,floor⟩ := List.mem_filter.mp member
    exact List.mem_filter.mpr ⟨(mem_policiesOf.mp among).1,floor⟩
  · refine List.subset_append_of_subset_left _ (List.subset_append_of_subset_right _ (List.map_subset _ ?_))
    intro c member
    exact (mem_triggeredCompounds.mp (List.mem_filter.mp member).1).1
  · exact List.subset_append_right _ _

theorem releaseSemantics_valid (failureCode : Option Text) (scanState : ScanState) (riskBand : RiskBand)
    (evaluatedAt : DateTime) :
    validateReleaseSemantics (evaluationFields shipped (findingCodes result)
      (completenessReasons result failureCode scanState (findingCodes result)) riskBand evaluatedAt) = .ok () := by
  refine require_bind_ok.mpr ⟨rfl,require_bind_ok.mpr ⟨?_,require_ok.mpr ?_⟩⟩
  · by_cases hard : hardBlockReasonsOf shipped (findingCodes result) = []
    · exact .inl hard
    · exact .inr (decisionOf_block.mpr hard)
  · intro allowed
    by_contra incomplete
    have reasons : completenessReasons result failureCode scanState (findingCodes result) ≠ [] := by
      simpa [evaluationFields] using incomplete
    exact (decisionOf_allow.mp allowed).2.1 (.inl ((mandatoryReasonsOf_ne_nil result _).mpr (.inr reasons)))

theorem evaluationFields_valid (failureCode : Option Text) (scanState : ScanState) (riskBand : RiskBand)
    (evaluatedAt : DateTime) (aware : evaluatedAt.aware = true) :
    validateEvaluation (evaluationFields shipped (findingCodes result)
      (completenessReasons result failureCode scanState (findingCodes result)) riskBand evaluatedAt) = .ok () := by
  have completeness := completenessReasons_length result failureCode scanState (findingCodes result)
  have hard := hardBlockReasonsOf_length result
  have mandatory := mandatoryReasonsOf_length result
    (completenessReasons result failureCode scanState (findingCodes result))
  have compounds := triggeredCompounds_length result
  have reasons := decisionReasonsOf_length result
    (completenessReasons result failureCode scanState (findingCodes result))
  have contributions := contributionsOf_length result
  simp only [validateEvaluation,require_bind_ok,forAll_bind_ok]
  refine ⟨show lengthWithin 1 32 POLICY_VERSION by decide,
    shipped_rows.2.2.2.2.2,riskScoreOf_range result,
    hard.trans (by decide),mandatory.trans (by omega),?_,reasons.trans (by omega),reasons_valid result _,
    contributions.trans (by decide),contributions_valid result,aware,?_,
    releaseSemantics_valid result failureCode scanState riskBand evaluatedAt⟩
  · simp only [evaluationFields,sortedBy_length,List.length_map]
    omega
  · intro values listed
    simp only [evaluationFields,List.mem_cons,List.not_mem_nil,or_false] at listed
    rw [requireSortedUniqueCodes,require_ok]
    obtain rfl | rfl | rfl := listed
    · rw [hardBlockReasonsOf_eq,sortedSet_idem]
    · exact sortedSet_idem _
    · rw [sortedBy_id (triggeredNames_nodup result),sortedSet_idem]

end Parts

/-! ### The decision -/

theorem build_fields {fields : EvaluationFields} {e : PolicyEvaluation}
    (built : PolicyEvaluation.build fields = .ok e) : e.toEvaluationFields = fields := by
  unfold PolicyEvaluation.build at built
  split at built
  · cases built
    rfl
  · cases built

theorem build_returns {fields : EvaluationFields} (valid : validateEvaluation fields = .ok ()) :
    ∃ e, PolicyEvaluation.build fields = .ok e := by
  unfold PolicyEvaluation.build
  split
  · exact ⟨_,rfl⟩
  · rename_i invalid
    rw [valid] at invalid
    cases invalid

/-- What the evaluation of a result is, whenever it returns. -/
theorem evaluatePolicy_fields {digest : List UInt8 → Text} {reg : PolicyRegistry} {result : Option AnalysisResult}
    {failureCode : Option Text} {scanState : ScanState} {evaluatedAt : Option DateTime} {now : Int}
    {e : PolicyEvaluation}
    (returned : evaluatePolicy digest reg result failureCode scanState evaluatedAt now = .ok e) :
    ∃ riskBand, e.toEvaluationFields = evaluationFields reg (findingCodes result)
      (completenessReasons result failureCode scanState (findingCodes result)) riskBand
      (evaluatedAt.getD ⟨now,true⟩) := by
  simp only [evaluatePolicy,bind_ok,mapError_ok] at returned
  obtain ⟨_,_,_,_,_,_,riskBand,_,_,_,built⟩ := returned
  exact ⟨riskBand,build_fields built⟩

/-- The evaluation of a result with the shipped registry decides as its findings and its completeness ask for. -/
theorem evaluationFields_decided (result : Option AnalysisResult) (failureCode : Option Text) (scanState : ScanState)
    (riskBand : RiskBand) (evaluatedAt : DateTime) :
    Decided result failureCode scanState (evaluationFields shipped (findingCodes result)
      (completenessReasons result failureCode scanState (findingCodes result)) riskBand evaluatedAt) := by
  have hard := hardBlockReasonsOf_ne_nil result
  have incomplete := completenessReasons_ne_nil result failureCode scanState
  have mandatory := mandatoryReasonsOf_ne_nil result
    (completenessReasons result failureCode scanState (findingCodes result))
  rw [incomplete,or_comm] at mandatory
  refine { block := ?block, quarantine := ?quarantine, review := ?review, allow := ?allow,
           listedOnce := contributionsOf_nodup result, listed := fun _ => mem_contributionsOf result, score := rfl,
           release := by simp [evaluationFields], complete := ?complete }
  case complete =>
    rw [← incomplete]
    simp [evaluationFields]
  case block => exact decisionOf_block.trans hard
  case quarantine => exact decisionOf_quarantine.trans (by rw [hard,mandatory,or_assoc]; rfl)
  case review => exact decisionOf_review.trans (by rw [hard,mandatory,or_assoc]; rfl)
  case allow => exact decisionOf_allow.trans (by rw [hard,mandatory,or_assoc]; rfl)

/-- Whatever the shipped policy returns decides as the result asks for. -/
theorem evaluatePolicy_decided {digest : List UInt8 → Text} {result : Option AnalysisResult}
    {failureCode : Option Text} {scanState : ScanState} {evaluatedAt : Option DateTime} {now : Int}
    {e : PolicyEvaluation}
    (returned : evaluatePolicy digest shipped result failureCode scanState evaluatedAt now = .ok e) :
    Decided result failureCode scanState e.toEvaluationFields := by
  obtain ⟨riskBand,fields⟩ := evaluatePolicy_fields returned
  rw [fields]
  exact evaluationFields_decided result failureCode scanState riskBand _

theorem evaluatePolicy_returns (result : Option AnalysisResult) (failureCode : Option Text) (scanState : ScanState)
    (evaluatedAt : Option DateTime) (now : Int) (aware : ∀ t, evaluatedAt = some t → t.aware = true) :
    ∃ e, evaluatePolicy sha256 shipped result failureCode scanState evaluatedAt now = .ok e := by
  have awareAt : (evaluatedAt.getD ⟨now,true⟩).aware = true := by
    cases evaluatedAt with
    | none => rfl
    | some t => exact aware t rfl
  have covered : ∀ code ∈ findingCodes result, (shipped.findingPolicy code).isSome := fun code member =>
    findingPolicy_isSome (shipped_codes ▸ findingCodes_known code member)
  obtain ⟨band,banded⟩ : ∃ band, riskBandForScore (riskScoreOf shipped (findingCodes result)) = .ok band :=
    ⟨_,require_bind_ok.mpr ⟨riskScoreOf_range result,rfl⟩⟩
  obtain ⟨e,built⟩ := build_returns (evaluationFields_valid result failureCode scanState band _ awareAt)
  refine ⟨e,?_⟩
  simp only [evaluatePolicy,bind_ok,mapError_ok]
  exact ⟨_,shipped_valid,_,require_ok.mpr covered,_,forAll_ok.mpr (contributions_valid result),band,banded,
    _,forAll_ok.mpr (reasons_valid result _),built⟩

/-- The shipped policy returns an evaluation of every result, with the decision that the result asks for. -/
theorem evaluatePolicy_spec (result : Option AnalysisResult) (failureCode : Option Text) (scanState : ScanState)
    (evaluatedAt : Option DateTime) (now : Int) (aware : ∀ t, evaluatedAt = some t → t.aware = true) :
    ∃ e, evaluatePolicy sha256 shipped result failureCode scanState evaluatedAt now = .ok e ∧
      Decided result failureCode scanState e.toEvaluationFields := by
  obtain ⟨e,returned⟩ := evaluatePolicy_returns result failureCode scanState evaluatedAt now aware
  exact ⟨e,returned,evaluatePolicy_decided returned⟩

/-- A completed analysis of a PDF with a script that runs when the document is opened. -/
def openingScript : AnalysisResult where
  schemaVersion := ANALYSIS_SCHEMA_VERSION
  workerVersion := lit "1.0.0"
  status := .SUCCESS
  detectedType := some (lit "PDF")
  sizeBytes := 4
  findings := [findingPayload (lit "PDF_JAVASCRIPT") [] (by decide +kernel),
    findingPayload (lit "PDF_OPEN_ACTION") [] (by decide +kernel)]
  analyzerMetadata := []
  startedAt := ⟨0,true⟩
  completedAt := ⟨0,true⟩
  durationMs := 0
  valid := by decide +kernel

theorem evaluatePolicy_spec_openingScript :
    ∃ e, evaluatePolicy sha256 shipped (some openingScript) none .ANALYZING (some ⟨5,true⟩) 0 = .ok e ∧
      Decided (some openingScript) none .ANALYZING e.toEvaluationFields :=
  evaluatePolicy_spec (some openingScript) none .ANALYZING (some ⟨5,true⟩) 0 (fun _ given => Option.some.inj given ▸ rfl)

end DocGuard.Decisions
