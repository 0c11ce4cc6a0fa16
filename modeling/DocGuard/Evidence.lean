import DocGuard.Decisions

/-!
What the findings of a result do to its evaluation, under any registry that passes
the structural checks: only the set of their codes matters, more codes never lower
the score or the decision, and which floors of the registry the decision respects.
-/
namespace DocGuard.Evidence
open DocGuard.Ordered DocGuard.Checks DocGuard.Contract DocGuard.Domain DocGuard.Registry DocGuard.Engine
open DocGuard.Decisions
open DocGuard.Sha256 (sha256)

/-- The order `ALLOW < REVIEW < QUARANTINE < BLOCK`. -/
def severity : Decision → Nat
  | .ALLOW => 0
  | .REVIEW => 1
  | .QUARANTINE => 2
  | .BLOCK => 3

variable {digest : List UInt8 → Text} {reg : PolicyRegistry} {failureCode : Option Text} {scanState : ScanState}
  {evaluatedAt : Option DateTime} {now : Int}

/-! ### The set of codes -/

/-- The states in which the lifecycle is regular. -/
def Regular (scanState : ScanState) : Prop := scanState = .ANALYZING ∨ scanState = .COMPLETED

theorem findingCodes_congr {r r' : AnalysisResult} (codes : ∀ code, Present (some r) code ↔ Present (some r') code) :
    findingCodes (some r) = findingCodes (some r') := by
  refine increasing_ext (findingCodes_increasing _) (findingCodes_increasing _) fun code => ?_
  rw [mem_findingCodes,mem_findingCodes]
  exact codes code

theorem completenessReasons_congr {r r' : AnalysisResult} {failureCode' : Option Text} {scanState' : ScanState}
    (codes : List Text) (status : r.status = r'.status) (type : r.detectedType = r'.detectedType)
    (failure : failureCode.isSome = failureCode'.isSome) (lifecycle : Regular scanState ↔ Regular scanState') :
    completenessReasons (some r) failureCode scanState codes =
      completenessReasons (some r') failureCode' scanState' codes := by
  have classes : (if scanState = .ANALYZING ∨ scanState = .COMPLETED then ([] : List AnalysisReason)
      else [.LIFECYCLE_INCONSISTENCY]) =
      if scanState' = .ANALYZING ∨ scanState' = .COMPLETED then [] else [.LIFECYCLE_INCONSISTENCY] :=
    if_congr lifecycle rfl rfl
  simp only [completenessReasons,resultReasons,status,type,failure,classes]

/-- Two results with the same status, type and set of codes have the same evaluation. -/
theorem evaluatePolicy_congr (digest : List UInt8 → Text) (reg : PolicyRegistry) {r r' : AnalysisResult}
    {failureCode failureCode' : Option Text} {scanState scanState' : ScanState} (evaluatedAt : Option DateTime) (now : Int)
    (status : r.status = r'.status) (type : r.detectedType = r'.detectedType)
    (codes : ∀ code, Present (some r) code ↔ Present (some r') code)
    (failure : failureCode.isSome = failureCode'.isSome) (lifecycle : Regular scanState ↔ Regular scanState') :
    evaluatePolicy digest reg (some r) failureCode scanState evaluatedAt now =
      evaluatePolicy digest reg (some r') failureCode' scanState' evaluatedAt now := by
  simp only [evaluatePolicy,findingCodes_congr codes,
    completenessReasons_congr _ status type failure lifecycle]

/-- A finding as the contract presents its code. -/
def presented (metadata : List (Text × Json.Value)) (d : FindingDefinition) : FindingFields :=
  { code := d.code, title := d.title, description := d.description, severity := d.defaultSeverity, category := d.category,
    scoreDelta := 0, mitreTechniques := d.mitreTechniques, metadata := metadata }

/-- A completed analysis of a PDF with these findings. -/
def reported (findings : List FindingFields) (durationMs : Int)
    (valid : validateResult ⟨ANALYSIS_SCHEMA_VERSION,lit "1.0.0",.SUCCESS,some (lit "PDF"),4,findings,[],⟨0,true⟩,
      ⟨0,true⟩,durationMs⟩ = .ok ()) : AnalysisResult := ⟨_,valid⟩

/-- The finding of a script. -/
def scripts (metadata : List (Text × Json.Value)) : List FindingFields :=
  (definitions.filter (·.code = lit "PDF_JAVASCRIPT")).map (presented metadata)

/-- The finding of a mismatched media type. -/
def mismatches : List FindingFields :=
  (definitions.filter (·.code = lit "FILE_CLIENT_MIME_MISMATCH")).map (presented [])

/-- The findings of the first registered codes. -/
def firstFindings (n : Nat) : List FindingFields := (definitions.take n).map (presented [])

theorem samples_valid : ∀ findings ∈ [[],scripts [],scripts [] ++ scripts [],scripts [(lit "n",.int 1)],mismatches,
      firstFindings 16,firstFindings 17], ∀ durationMs ∈ [3,5],
    validateResult ⟨ANALYSIS_SCHEMA_VERSION,lit "1.0.0",.SUCCESS,some (lit "PDF"),4,findings,[],⟨0,true⟩,⟨0,true⟩,
      durationMs⟩ = .ok () := by
  decide +kernel

theorem evaluatePolicy_congr_repeated :
    evaluatePolicy sha256 shipped
        (some (reported (scripts [] ++ scripts []) 3 (samples_valid _ (by simp) _ (by simp)))) none .ANALYZING none 0 =
      evaluatePolicy sha256 shipped
        (some (reported (scripts [(lit "n",.int 1)]) 5 (samples_valid _ (by simp) _ (by simp)))) none .COMPLETED
        none 0 := by
  refine evaluatePolicy_congr sha256 shipped none 0 rfl rfl (fun code => ?_) rfl (by simp [Regular])
  simp [Present,reported,scripts,presented]

/-! ### More evidence -/

section Structural
variable (structural : structuralChecks reg = .ok ())
include structural

theorem policies_checked : ∀ p ∈ reg.policies, checkFindingPolicy p = .ok () := by
  simp only [structuralChecks,require_bind_ok,forAll_bind_ok] at structural
  exact structural.2.2.2.1

theorem compounds_checked : ∀ c ∈ reg.compounds, checkCompoundPolicy c = .ok () := by
  simp only [structuralChecks,require_bind_ok,forAll_bind_ok,forAll_ok] at structural
  exact structural.2.2.2.2.2

theorem codes_distinct : reg.codes.Nodup := by
  simp only [structuralChecks,require_bind_ok] at structural
  exact structural.2.2.1

theorem policy_nonneg {p : FindingPolicy} (member : p ∈ reg.policies) : 0 ≤ p.contribution := by
  have checked := policies_checked structural p member
  simp only [checkFindingPolicy,require_bind_ok] at checked
  exact checked.1.1

theorem compound_nonneg {c : CompoundPolicy} (member : c ∈ reg.compounds) : 0 ≤ c.contribution := by
  have checked := compounds_checked structural c member
  simp only [checkCompoundPolicy,require_bind_ok] at checked
  exact checked.2.1.1

/-- Only a hard block has the floor BLOCK. -/
theorem policy_hardBlock {p : FindingPolicy} (member : p ∈ reg.policies) :
    p.hardBlock = true ↔ p.minimumDecision = some .BLOCK := by
  have checked := policies_checked structural p member
  simp only [checkFindingPolicy,require_bind_ok,require_ok] at checked
  rw [checked.2.2.2,decide_eq_true_eq]

theorem compound_floor {c : CompoundPolicy} (member : c ∈ reg.compounds) :
    c.minimumDecision ≠ some .ALLOW ∧ c.minimumDecision ≠ some .BLOCK := by
  have checked := compounds_checked structural c member
  simp only [checkCompoundPolicy,require_bind_ok,require_ok] at checked
  exact checked.2.2

end Structural

theorem evaluatePolicy_structural {result : Option AnalysisResult} {e : PolicyEvaluation}
    (returned : evaluatePolicy digest reg result failureCode scanState evaluatedAt now = .ok e) :
    structuralChecks reg = .ok () := by
  simp only [evaluatePolicy,bind_ok,mapError_ok,validatePolicyRegistry] at returned
  obtain ⟨_,⟨⟨⟩,structural,_⟩,_⟩ := returned
  exact structural

theorem mem_policiesOf_any {codes : List Text} {p : FindingPolicy} :
    p ∈ policiesOf reg codes ↔ ∃ code ∈ codes, reg.findingPolicy code = some p :=
  List.mem_filterMap

/-- The policies of the present codes, whatever the registry. -/
theorem policiesOf_iff (distinct : reg.codes.Nodup) {codes : List Text} {p : FindingPolicy} :
    p ∈ policiesOf reg codes ↔ p ∈ reg.policies ∧ p.findingCode ∈ codes := by
  rw [mem_policiesOf_any]
  constructor
  · rintro ⟨code,member,found⟩
    obtain ⟨listed,same⟩ := findingPolicy_some found
    exact ⟨listed,same ▸ member⟩
  · rintro ⟨listed,member⟩
    exact ⟨p.findingCode,member,findingPolicy_listed distinct listed⟩

theorem policiesOf_perm (distinct : reg.codes.Nodup) {codes : List Text} (nodup : codes.Nodup) :
    (policiesOf reg codes).Perm (reg.policies.filter fun p => decide (p.findingCode ∈ codes)) := by
  refine (List.perm_ext_iff_of_nodup ?_ ?_).mpr fun p => ?_
  · refine nodup.filterMap fun a b p found found' => ?_
    rw [← (findingPolicy_some found).2,← (findingPolicy_some found').2]
  · exact (List.Nodup.of_map _ distinct).filter _
  · rw [policiesOf_iff distinct,List.mem_filter,decide_eq_true_eq]

/-- The contributions of the present codes and of the compounds that they trigger. -/
def weight (reg : PolicyRegistry) (codes : List Text) : Int :=
  ((reg.policies.filter fun p => decide (p.findingCode ∈ codes)).map (·.contribution)).sum +
    ((triggeredCompounds reg codes).map (·.contribution)).sum

theorem riskScoreOf_weight (distinct : reg.codes.Nodup) {codes : List Text} (nodup : codes.Nodup) :
    riskScoreOf reg codes = min 100 (weight reg codes) := by
  have sorted := ((sortedBy_perm (fun c : PolicyContribution => c.code) ((policiesOf reg codes).map findingContribution ++
    (triggeredCompounds reg codes).map compoundContribution)).map (·.contribution)).sum_eq
  have policies := ((policiesOf_perm distinct nodup).map (·.contribution)).sum_eq
  rw [riskScoreOf,contributionsOf,sorted,List.map_append,List.sum_append,List.map_map,List.map_map,weight,← policies]
  rfl

section Growth
variable {codes codes' : List Text}

theorem triggered_sublist (grows : codes ⊆ codes') :
    (triggeredCompounds reg codes).Sublist (triggeredCompounds reg codes') := by
  refine List.monotone_filter_right _ fun c triggered => ?_
  simp only [decide_eq_true_eq] at triggered ⊢
  exact fun _ member => grows (triggered member)

theorem weight_grows (structural : structuralChecks reg = .ok ()) (grows : codes ⊆ codes') :
    weight reg codes ≤ weight reg codes' := by
  refine Int.add_le_add (List.Sublist.sum_le_sum ?_ ?_) (List.Sublist.sum_le_sum ?_ ?_)
  · refine (List.monotone_filter_right _ fun p present => ?_).map _
    simp only [decide_eq_true_eq] at present ⊢
    exact grows present
  · intro contribution member
    obtain ⟨p,listed,rfl⟩ := List.mem_map.mp member
    exact policy_nonneg structural (List.mem_of_mem_filter listed)
  · exact (triggered_sublist grows).map _
  · intro contribution member
    obtain ⟨c,listed,rfl⟩ := List.mem_map.mp member
    exact compound_nonneg structural (List.mem_of_mem_filter listed)

theorem policiesOf_grows (grows : codes ⊆ codes') : policiesOf reg codes ⊆ policiesOf reg codes' := by
  intro p member
  obtain ⟨code,present,found⟩ := mem_policiesOf_any.mp member
  exact mem_policiesOf_any.mpr ⟨code,grows present,found⟩

theorem hardBlockReasonsOf_grows (grows : codes ⊆ codes') : hardBlockReasonsOf reg codes ⊆ hardBlockReasonsOf reg codes' := by
  intro code member
  rw [hardBlockReasonsOf,mem_sortedBy] at member ⊢
  exact List.map_subset _ (List.filter_subset _ (policiesOf_grows grows)) member

theorem mandatoryReasonsOf_grows {completeness completeness' : List AnalysisReason} (grows : codes ⊆ codes')
    (reasons : completeness ⊆ completeness') :
    mandatoryReasonsOf reg codes completeness ⊆ mandatoryReasonsOf reg codes' completeness' := by
  intro code member
  simp only [mandatoryReasonsOf,mem_sortedSet,List.mem_append] at member ⊢
  refine Or.imp (Or.imp ?_ ?_) ?_ member
  · exact fun policy => List.map_subset _ (List.filter_subset _ (policiesOf_grows grows)) policy
  · exact fun compound => List.map_subset _ (List.filter_subset _ (triggered_sublist grows).subset) compound
  · exact fun reason => List.map_subset _ reasons reason

theorem completenessReasons_grows {r r' : AnalysisResult} (status : r'.status = r.status)
    (type : r'.detectedType = r.detectedType) (grows : codes ⊆ codes') :
    completenessReasons (some r) failureCode scanState codes ⊆ completenessReasons (some r') failureCode scanState codes' := by
  intro reason member
  simp only [completenessReasons,resultReasons,List.mem_append,status,type] at member ⊢
  refine Or.imp_left (Or.imp_left (Or.imp_right fun contradiction => ?_)) member
  split at contradiction
  · rename_i contradicts
    have still : r.status = .SUCCESS ∧ codes'.any partialCode = true := by
      refine ⟨contradicts.1,?_⟩
      obtain ⟨code,listed,partially⟩ := List.any_eq_true.mp contradicts.2
      exact List.any_eq_true.mpr ⟨code,grows listed,partially⟩
    rw [if_pos still]
    exact contradiction
  · cases contradiction

end Growth

theorem decisionOf_grows {hardBlock hardBlock' mandatory mandatory' : List Text} {score score' : Int}
    (blocks : hardBlock ⊆ hardBlock') (holds : mandatory ⊆ mandatory') (higher : score ≤ score') :
    severity (decisionOf hardBlock mandatory score) ≤ severity (decisionOf hardBlock' mandatory' score') := by
  have nonempty {xs ys : List Text} (sub : xs ⊆ ys) (some : xs ≠ []) : ys ≠ [] := by
    obtain ⟨x,member⟩ := List.exists_mem_of_ne_nil xs some
    exact List.ne_nil_of_mem (sub member)
  unfold decisionOf
  by_cases blocked : hardBlock = []
  · rw [if_neg (not_not.mpr blocked)]
    by_cases held : mandatory ≠ [] ∨ 40 ≤ score
    · have held' : mandatory' ≠ [] ∨ 40 ≤ score' := held.imp (nonempty holds) (fun high => high.trans higher)
      rw [if_pos held]
      simp only [if_pos held']
      split <;> decide
    · rw [if_neg held]
      by_cases reviewed : 20 ≤ score
      · rw [if_pos reviewed]
        simp only [if_pos (reviewed.trans higher)]
        split
        · decide
        · split <;> decide
      · rw [if_neg reviewed]
        exact Nat.zero_le _
  · rw [if_pos blocked,if_pos (nonempty blocks blocked)]

/-- With more findings of the same kind of result the score, the decision and the reasons only grow, whenever both
    evaluations return. -/
theorem evidence_grows {r r' : AnalysisResult} {e e' : PolicyEvaluation} (kept : ∀ f ∈ r.findings, f ∈ r'.findings)
    (status : r'.status = r.status) (type : r'.detectedType = r.detectedType)
    (before : evaluatePolicy digest reg (some r) failureCode scanState evaluatedAt now = .ok e)
    (after : evaluatePolicy digest reg (some r') failureCode scanState evaluatedAt now = .ok e') :
    e.riskScore ≤ e'.riskScore ∧ severity e.decision ≤ severity e'.decision ∧
      e.hardBlockReasons ⊆ e'.hardBlockReasons ∧ e.mandatoryQuarantineReasons ⊆ e'.mandatoryQuarantineReasons ∧
      e.compoundRulesTriggered ⊆ e'.compoundRulesTriggered := by
  have structural := evaluatePolicy_structural before
  have distinct := codes_distinct structural
  have grows : findingCodes (some r) ⊆ findingCodes (some r') := by
    intro code member
    obtain ⟨q,given,f,listed,same⟩ := mem_findingCodes.mp member
    cases given
    exact mem_findingCodes.mpr ⟨r',rfl,f,kept f listed,same⟩
  have score : riskScoreOf reg (findingCodes (some r)) ≤ riskScoreOf reg (findingCodes (some r')) := by
    rw [riskScoreOf_weight distinct (increasing_nodup (findingCodes_increasing _)),
      riskScoreOf_weight distinct (increasing_nodup (findingCodes_increasing _))]
    exact min_le_min_left 100 (weight_grows structural grows)
  have blocks : hardBlockReasonsOf reg (findingCodes (some r)) ⊆ hardBlockReasonsOf reg (findingCodes (some r')) :=
    hardBlockReasonsOf_grows grows
  have reasons : completenessReasons (some r) failureCode scanState (findingCodes (some r)) ⊆
      completenessReasons (some r') failureCode scanState (findingCodes (some r')) :=
    completenessReasons_grows status type grows
  have holds : mandatoryReasonsOf reg (findingCodes (some r)) _ ⊆ mandatoryReasonsOf reg (findingCodes (some r')) _ :=
    mandatoryReasonsOf_grows grows reasons
  obtain ⟨band,fields⟩ := evaluatePolicy_fields before
  obtain ⟨band',fields'⟩ := evaluatePolicy_fields after
  rw [fields,fields']
  refine ⟨score,decisionOf_grows blocks holds score,blocks,holds,fun name member => ?_⟩
  simp only [evaluationFields,mem_sortedBy] at member ⊢
  exact List.map_subset _ (triggered_sublist grows).subset member

def unremarkable : AnalysisResult := reported [] 3 (samples_valid _ (by simp) _ (by simp))

def scripted : AnalysisResult := reported (scripts []) 3 (samples_valid _ (by simp) _ (by simp))

theorem evidence_grows_scripted : ∃ e e',
    evaluatePolicy sha256 shipped (some unremarkable) none .ANALYZING none 0 = .ok e ∧
    evaluatePolicy sha256 shipped (some scripted) none .ANALYZING none 0 = .ok e' ∧
    e.riskScore ≤ e'.riskScore ∧ severity e.decision ≤ severity e'.decision ∧
      e.hardBlockReasons ⊆ e'.hardBlockReasons ∧ e.mandatoryQuarantineReasons ⊆ e'.mandatoryQuarantineReasons ∧
      e.compoundRulesTriggered ⊆ e'.compoundRulesTriggered := by
  obtain ⟨e,before⟩ := evaluatePolicy_returns (some unremarkable) none .ANALYZING none 0
    (fun _ impossible => by cases impossible)
  obtain ⟨e',after⟩ := evaluatePolicy_returns (some scripted) none .ANALYZING none 0
    (fun _ impossible => by cases impossible)
  have kept : ∀ f ∈ unremarkable.findings, f ∈ scripted.findings := fun f member => by cases member
  exact ⟨e,e',before,after,evidence_grows kept rfl rfl before after⟩

theorem toOption_some {ε α : Type} {outcome : Except ε α} {a : α} (value : outcome.toOption = some a) : outcome = .ok a := by
  cases outcome with
  | ok b => exact congrArg Except.ok (Option.some.inj value)
  | error e => cases value

/-- A registry in which every finding blocks; its fingerprint is that of `fixedDigest`. -/
def blocking : PolicyRegistry :=
  ⟨POLICY_VERSION,shippedPolicies.map (fun p => { p with minimumDecision := some .BLOCK, hardBlock := true }),[],
    POLICY_FINGERPRINT⟩

def fixedDigest : List UInt8 → Text := fun _ => POLICY_FINGERPRINT

def blocked : AnalysisResult := reported (firstFindings 16) 3 (samples_valid _ (by simp) _ (by simp))

def overblocked : AnalysisResult := reported (firstFindings 17) 3 (samples_valid _ (by simp) _ (by simp))

/-- Under that registry sixteen findings are blocked, and with one more the evaluation raises. -/
theorem evidence_raises : structuralChecks blocking = .ok () ∧ (∀ f ∈ blocked.findings, f ∈ overblocked.findings) ∧
    (∃ e, evaluatePolicy fixedDigest blocking (some blocked) none .ANALYZING none 0 = .ok e ∧ e.decision = .BLOCK) ∧
    ∀ e, evaluatePolicy fixedDigest blocking (some overblocked) none .ANALYZING none 0 ≠ .ok e := by
  have evaluated : structuralChecks blocking = .ok () ∧
      (evaluatePolicy fixedDigest blocking (some blocked) none .ANALYZING none 0).toOption.map (·.decision) =
        some .BLOCK ∧
      (evaluatePolicy fixedDigest blocking (some overblocked) none .ANALYZING none 0).toOption.isSome = false := by
    decide +kernel
  obtain ⟨structural,decision,raises⟩ := evaluated
  refine ⟨structural,?_,?_,?_⟩
  · have sublist : (firstFindings 16).Sublist (firstFindings 17) :=
      (List.take_sublist_take_left (by decide)).map _
    exact fun f member => sublist.subset member
  · obtain ⟨e,returned,same⟩ := Option.map_eq_some_iff.mp decision
    exact ⟨e,toOption_some returned,same⟩
  · intro e returned
    rw [returned] at raises
    cases raises

/-! ### Floors -/

/-- A present finding or a triggered compound declares this minimum decision. -/
def Declares (reg : PolicyRegistry) (result : Option AnalysisResult) (d : Decision) : Prop :=
  (∃ p ∈ reg.policies, Present result p.findingCode ∧ p.minimumDecision = some d) ∨
  ∃ c ∈ reg.compounds, (∀ code ∈ c.requiredFindings, Present result code) ∧ c.minimumDecision = some d

/-- Nothing but a floor would keep the result from being allowed. -/
def Light (reg : PolicyRegistry) (result : Option AnalysisResult) (failureCode : Option Text)
    (scanState : ScanState) : Prop :=
  ¬Declares reg result .BLOCK ∧ ¬Declares reg result .QUARANTINE ∧ ¬Incomplete result failureCode scanState ∧
    weight reg (findingCodes result) < 20

section Floors
variable {result : Option AnalysisResult}

theorem mem_triggered {c : CompoundPolicy} : c ∈ triggeredCompounds reg (findingCodes result) ↔
    c ∈ reg.compounds ∧ ∀ code ∈ c.requiredFindings, Present result code := by
  simp [triggeredCompounds,List.subset_def,mem_findingCodes]

theorem hardBlockReasonsOf_iff (structural : structuralChecks reg = .ok ()) :
    hardBlockReasonsOf reg (findingCodes result) ≠ [] ↔ Declares reg result .BLOCK := by
  have distinct := codes_distinct structural
  rw [ne_nil_iff_mem]
  constructor
  · rintro ⟨code,member⟩
    rw [hardBlockReasonsOf,mem_sortedBy] at member
    obtain ⟨p,listed,_⟩ := List.mem_map.mp member
    obtain ⟨present,hard⟩ := List.mem_filter.mp listed
    obtain ⟨registered,code⟩ := (policiesOf_iff distinct).mp present
    exact .inl ⟨p,registered,mem_findingCodes.mp code,(policy_hardBlock structural registered).mp hard⟩
  · rintro (⟨p,registered,present,floor⟩ | ⟨c,registered,_,floor⟩)
    · refine ⟨p.findingCode,?_⟩
      rw [hardBlockReasonsOf,mem_sortedBy]
      refine List.mem_map_of_mem (List.mem_filter.mpr ⟨?_,(policy_hardBlock structural registered).mpr floor⟩)
      exact (policiesOf_iff distinct).mpr ⟨registered,mem_findingCodes.mpr present⟩
    · exact absurd floor (compound_floor structural registered).2

theorem mandatoryReasonsOf_iff (distinct : reg.codes.Nodup) (completeness : List AnalysisReason) :
    mandatoryReasonsOf reg (findingCodes result) completeness ≠ [] ↔
      Declares reg result .QUARANTINE ∨ completeness ≠ [] := by
  rw [ne_nil_iff_mem]
  simp only [mandatoryReasonsOf,mem_sortedSet,List.mem_append,List.mem_map,List.mem_filter,decide_eq_true_eq]
  constructor
  · rintro ⟨code,(⟨p,⟨present,floor⟩,_⟩ | ⟨c,⟨triggered,floor⟩,_⟩) | ⟨reason,listed,_⟩⟩
    · obtain ⟨registered,code⟩ := (policiesOf_iff distinct).mp present
      exact .inl (.inl ⟨p,registered,mem_findingCodes.mp code,floor⟩)
    · obtain ⟨registered,present⟩ := mem_triggered.mp triggered
      exact .inl (.inr ⟨c,registered,present,floor⟩)
    · exact .inr (List.ne_nil_of_mem listed)
  · rintro ((⟨p,registered,present,floor⟩ | ⟨c,registered,present,floor⟩) | some)
    · exact ⟨_,.inl (.inl ⟨p,⟨(policiesOf_iff distinct).mpr ⟨registered,mem_findingCodes.mpr present⟩,floor⟩,rfl⟩)⟩
    · exact ⟨_,.inl (.inr ⟨c,⟨mem_triggered.mpr ⟨registered,present⟩,floor⟩,rfl⟩)⟩
    · obtain ⟨reason,listed⟩ := List.exists_mem_of_ne_nil _ some
      exact ⟨_,.inr ⟨reason,listed,rfl⟩⟩

/-- What an evaluation under a checked registry decides. -/
theorem decision_iff {e : PolicyEvaluation}
    (returned : evaluatePolicy digest reg result failureCode scanState evaluatedAt now = .ok e) :
    (e.decision = .BLOCK ↔ Declares reg result .BLOCK) ∧
    (e.decision = .ALLOW ↔ Light reg result failureCode scanState) ∧
    (Declares reg result .QUARANTINE → 2 ≤ severity e.decision) := by
  have structural := evaluatePolicy_structural returned
  have distinct := codes_distinct structural
  obtain ⟨band,fields⟩ := evaluatePolicy_fields returned
  have hard : hardBlockReasonsOf reg (findingCodes result) ≠ [] ↔ Declares reg result .BLOCK :=
    hardBlockReasonsOf_iff structural
  have mandatory : mandatoryReasonsOf reg (findingCodes result)
      (completenessReasons result failureCode scanState (findingCodes result)) ≠ [] ↔
      Declares reg result .QUARANTINE ∨ completenessReasons result failureCode scanState (findingCodes result) ≠ [] :=
    mandatoryReasonsOf_iff distinct _
  rw [completenessReasons_ne_nil] at mandatory
  have score := riskScoreOf_weight distinct (increasing_nodup (findingCodes_increasing result))
  rw [fields]
  refine ⟨decisionOf_block.trans hard,?_,fun floor => ?_⟩
  · refine decisionOf_allow.trans ?_
    rw [hard,mandatory,score,Light]
    constructor
    · rintro ⟨unblocked,unheld,low⟩
      exact ⟨unblocked,fun floor => unheld (.inl (.inl floor)),fun incomplete => unheld (.inl (.inr incomplete)),
        by omega⟩
    · rintro ⟨unblocked,unfloored,complete,low⟩
      refine ⟨unblocked,?_,by omega⟩
      rintro ((floor | incomplete) | high)
      · exact unfloored floor
      · exact complete incomplete
      · omega
  · simp only [evaluationFields,decisionOf]
    split
    · decide
    · rw [if_pos (.inl (mandatory.mpr (.inl floor)))]
      decide

/-- Every declared floor is respected, unless a floor REVIEW is all that would keep the result from being allowed. -/
theorem floors_enforced_iff {e : PolicyEvaluation}
    (returned : evaluatePolicy digest reg result failureCode scanState evaluatedAt now = .ok e) :
    (∀ d, Declares reg result d → severity d ≤ severity e.decision) ↔
      ¬(Declares reg result .REVIEW ∧ Light reg result failureCode scanState) := by
  obtain ⟨block,allow,quarantine⟩ := decision_iff returned
  constructor
  · rintro respected ⟨review,light⟩
    have high := respected .REVIEW review
    rw [allow.mpr light] at high
    exact absurd high (by decide)
  · intro spared d declared
    cases d with
    | ALLOW => exact Nat.zero_le _
    | REVIEW =>
      have released : e.decision ≠ .ALLOW := fun allowed => spared ⟨declared,allow.mp allowed⟩
      cases decided : e.decision with
      | ALLOW => exact absurd decided released
      | REVIEW => decide
      | QUARANTINE => decide
      | BLOCK => decide
    | QUARANTINE => exact quarantine declared
    | BLOCK => rw [block.mpr declared]

end Floors

/-- A registry with a floor REVIEW for a finding that contributes little. -/
def reviewing : PolicyRegistry :=
  ⟨POLICY_VERSION,shippedPolicies.map (fun p =>
    if p.findingCode = lit "FILE_CLIENT_MIME_MISMATCH" then { p with minimumDecision := some .REVIEW } else p),[],
    POLICY_FINGERPRINT⟩

def mismatched : AnalysisResult :=
  reported mismatches 3 (samples_valid _ (by simp) _ (by simp))

/-- Under that registry the finding with the floor REVIEW is allowed. -/
theorem review_floor_ignored : structuralChecks reviewing = .ok () ∧ Declares reviewing (some mismatched) .REVIEW ∧
    ∃ e, evaluatePolicy fixedDigest reviewing (some mismatched) none .ANALYZING none 0 = .ok e ∧ e.decision = .ALLOW := by
  have evaluated : structuralChecks reviewing = .ok () ∧
      (reviewing.policies.any fun p => decide (p.minimumDecision = some .REVIEW) &&
        mismatched.findings.any fun f => decide (f.code = p.findingCode)) = true ∧
      (evaluatePolicy fixedDigest reviewing (some mismatched) none .ANALYZING none 0).toOption.map (·.decision) =
        some .ALLOW := by
    decide +kernel
  obtain ⟨structural,declared,decision⟩ := evaluated
  refine ⟨structural,?_,?_⟩
  · obtain ⟨p,listed,both⟩ := List.any_eq_true.mp declared
    rw [Bool.and_eq_true,decide_eq_true_eq] at both
    obtain ⟨f,member,same⟩ := List.any_eq_true.mp both.2
    exact .inl ⟨p,listed,⟨mismatched,rfl,f,member,of_decide_eq_true same⟩,both.1⟩
  · obtain ⟨e,returned,same⟩ := Option.map_eq_some_iff.mp decision
    exact ⟨e,toOption_some returned,same⟩

/-- The ignored floor, and the floors of a script that runs at the opening under the shipped registry. -/
theorem floors_enforced_iff_mismatched :
    (∃ e, evaluatePolicy fixedDigest reviewing (some mismatched) none .ANALYZING none 0 = .ok e ∧
      ((∀ d, Declares reviewing (some mismatched) d → severity d ≤ severity e.decision) ↔
        ¬(Declares reviewing (some mismatched) .REVIEW ∧ Light reviewing (some mismatched) none .ANALYZING))) ∧
    ∃ e, evaluatePolicy sha256 shipped (some openingScript) none .ANALYZING none 0 = .ok e ∧
      ((∀ d, Declares shipped (some openingScript) d → severity d ≤ severity e.decision) ↔
        ¬(Declares shipped (some openingScript) .REVIEW ∧ Light shipped (some openingScript) none .ANALYZING)) := by
  constructor
  · have returns : (evaluatePolicy fixedDigest reviewing (some mismatched) none .ANALYZING none 0).toOption.isSome = true := by
      decide +kernel
    obtain ⟨e,returned⟩ := Option.isSome_iff_exists.mp returns
    exact ⟨e,toOption_some returned,floors_enforced_iff (toOption_some returned)⟩
  · obtain ⟨e,returned⟩ := evaluatePolicy_returns (some openingScript) none .ANALYZING none 0
      (fun _ impossible => by cases impossible)
    exact ⟨e,returned,floors_enforced_iff returned⟩

end DocGuard.Evidence
