import DocGuard.Evidence
import DocGuard.JsonText

/-!
What the policy fingerprint pins. Registries that pass the structural checks and
have the same normal form have the same policy for every code and the same
compounds by name, so that they evaluate every result alike; and the order in which
a registry lists its entries has no part in its normal form.
-/
namespace DocGuard.Fingerprint
open DocGuard.Ordered DocGuard.Checks DocGuard.Domain DocGuard.Registry DocGuard.Engine DocGuard.Decisions DocGuard.Evidence
open DocGuard.Json
open DocGuard.Sha256 (sha256)

/-! ### Members of an object -/

/-- The member of an object with the key. -/
def member (key : Text) : Value → Option Value
  | .obj fields => (fields.find? fun field => field.1 == key).map Prod.snd
  | _ => none

theorem member_canonical {fields : List (Text × Value)} (distinct : (fields.map Prod.fst).Nodup) (key : Text) :
    member key (Value.canonical (.obj fields)) = (member key (.obj fields)).map Value.canonical := by
  have keys : ((canonicalFields fields).map Prod.fst).Nodup := by
    rw [canonicalFields_keys]
    exact distinct
  rw [Value.canonical, member, ← find?_perm (sortedBy_perm Prod.fst (canonicalFields fields)).symm keys,
    canonicalFields_map, List.find?_map, member, Option.map_map, Option.map_map]
  rfl

/-- Objects with the same canonical form have the same members, in canonical form. -/
theorem member_of_canonical {first second : List (Text × Value)} (distinct : (first.map Prod.fst).Nodup)
    (distinct' : (second.map Prod.fst).Nodup)
    (same : Value.canonical (.obj first) = Value.canonical (.obj second)) (key : Text) :
    (member key (.obj first)).map Value.canonical = (member key (.obj second)).map Value.canonical := by
  rw [← member_canonical distinct, ← member_canonical distinct', same]

theorem canonicalItems_eq (items : List Value) : canonicalItems items = items.map Value.canonical := by
  induction items with
  | nil => rfl
  | cons item rest ih => rw [canonicalItems, ih, List.map_cons]

theorem plainItems_of {floatRepr : Text → Text} {items : List Value} (plain : ∀ item ∈ items, Plain floatRepr item) :
    PlainItems floatRepr items := by
  induction items with
  | nil => trivial
  | cons item rest ih =>
    exact ⟨plain item List.mem_cons_self,ih fun other inside => plain other (List.mem_cons_of_mem _ inside)⟩

theorem canonical_texts (texts : List Text) : Value.canonical (.arr (texts.map .str)) = .arr (texts.map .str) := by
  rw [Value.canonical, canonicalItems_eq, List.map_map]
  exact congrArg Value.arr (List.map_congr_left fun _ _ => rfl)

theorem plain_texts {floatRepr : Text → Text} (texts : List Text) : Plain floatRepr (.arr (texts.map .str)) := by
  refine plainItems_of fun item inside => ?_
  obtain ⟨_,_,rfl⟩ := List.mem_map.mp inside
  trivial

/-! ### The normal form -/

/-- A finding policy in the normal form. -/
def findingFields (p : FindingPolicy) : List (Text × Value) :=
  [(lit "code",.str p.findingCode),(lit "contribution",.int p.contribution),
    (lit "explanation",.str p.explanation),(lit "minimum_decision",minimumDecisionValue p.minimumDecision),
    (lit "hard_block",.bool p.hardBlock),(lit "tags",.arr (p.tags.map .str))]

/-- A compound in the normal form. -/
def compoundFields (c : CompoundPolicy) : List (Text × Value) :=
  [(lit "name",.str c.name),(lit "required_findings",.arr ((sortedSet c.requiredFindings).map .str)),
    (lit "contribution",.int c.contribution),(lit "explanation",.str c.explanation),
    (lit "minimum_decision",minimumDecisionValue c.minimumDecision)]

def registryFields (reg : PolicyRegistry) : List (Text × Value) :=
  [(lit "version",.str reg.version),
    (lit "findings",.arr ((sortedBy (·.findingCode) reg.policies).map fun p => .obj (findingFields p))),
    (lit "compounds",.arr ((sortedBy (·.name) reg.compounds).map fun c => .obj (compoundFields c)))]

theorem normalized_eq (reg : PolicyRegistry) : normalized reg = .obj (registryFields reg) := rfl

/-- The bytes that are hashed. -/
def payload (reg : PolicyRegistry) : List UInt8 := utf8 (dumps true (normalized reg))

theorem findingFields_distinct (p : FindingPolicy) : ((findingFields p).map Prod.fst).Nodup := by
  simp only [findingFields,List.map_cons,List.map_nil]
  decide

theorem compoundFields_distinct (c : CompoundPolicy) : ((compoundFields c).map Prod.fst).Nodup := by
  simp only [compoundFields,List.map_cons,List.map_nil]
  decide

theorem registryFields_distinct (reg : PolicyRegistry) : ((registryFields reg).map Prod.fst).Nodup := by
  simp only [registryFields,List.map_cons,List.map_nil]
  decide

theorem minimumDecision_plain {floatRepr : Text → Text} (minimum : Option Decision) :
    Plain floatRepr (minimumDecisionValue minimum) := by
  cases minimum
  all_goals trivial

theorem finding_plain {floatRepr : Text → Text} (p : FindingPolicy) : Plain floatRepr (.obj (findingFields p)) :=
  ⟨findingFields_distinct p,trivial,trivial,trivial,minimumDecision_plain _,trivial,plain_texts _,trivial⟩

theorem compound_plain {floatRepr : Text → Text} (c : CompoundPolicy) : Plain floatRepr (.obj (compoundFields c)) :=
  ⟨compoundFields_distinct c,trivial,plain_texts _,trivial,trivial,minimumDecision_plain _,trivial⟩

theorem normalized_plain {floatRepr : Text → Text} (reg : PolicyRegistry) : Plain floatRepr (normalized reg) := by
  refine ⟨registryFields_distinct reg,trivial,plainItems_of ?_,plainItems_of ?_,trivial⟩
  · intro item inside
    obtain ⟨p,_,rfl⟩ := List.mem_map.mp inside
    exact finding_plain p
  · intro item inside
    obtain ⟨c,_,rfl⟩ := List.mem_map.mp inside
    exact compound_plain c

/-- Registries with the same payload have the same normal form. -/
theorem canonical_of_payload {reg reg' : PolicyRegistry} (same : payload reg = payload reg') :
    (normalized reg).canonical = (normalized reg').canonical := by
  have texts := utf8_injective same
  have plain : Plain id (normalized reg) := normalized_plain reg
  have plain' : Plain id (normalized reg') := normalized_plain reg'
  rw [← canonical_dumps _ plain, ← canonical_dumps _ plain'] at texts
  exact dumps_injective (canonical_canonical _ plain) (canonical_canonical _ plain') texts

/-! ### What the normal form keeps -/

theorem canonical_minimum (minimum : Option Decision) :
    (minimumDecisionValue minimum).canonical = minimumDecisionValue minimum := by
  cases minimum
  all_goals rfl

theorem minimum_injective {first second : Option Decision}
    (same : minimumDecisionValue first = minimumDecisionValue second) : first = second := by
  have values : ∀ d d' : Decision, d.value = d'.value → d = d' := by
    intro d d'
    cases d <;> cases d' <;> decide
  cases first <;> cases second
  · rfl
  · cases same
  · cases same
  · exact congrArg some (values _ _ (Value.str.inj same))

/-- The normal form keeps all of a finding policy. -/
theorem finding_of_canonical {p q : FindingPolicy}
    (same : Value.canonical (.obj (findingFields p)) = Value.canonical (.obj (findingFields q))) : p = q := by
  have members := member_of_canonical (findingFields_distinct p) (findingFields_distinct q) same
  have code : some (Value.str p.findingCode) = some (.str q.findingCode) := (members (lit "code") :)
  have contribution : some (Value.int p.contribution) = some (.int q.contribution) := (members (lit "contribution") :)
  have explanation : some (Value.str p.explanation) = some (.str q.explanation) := (members (lit "explanation") :)
  have minimum : some (minimumDecisionValue p.minimumDecision).canonical =
      some (minimumDecisionValue q.minimumDecision).canonical := (members (lit "minimum_decision") :)
  have hardBlock : some (Value.bool p.hardBlock) = some (.bool q.hardBlock) := (members (lit "hard_block") :)
  have tags : some (Value.canonical (.arr (p.tags.map .str))) = some (Value.canonical (.arr (q.tags.map .str))) :=
    (members (lit "tags") :)
  rw [canonical_minimum, canonical_minimum] at minimum
  rw [canonical_texts, canonical_texts] at tags
  have texts := List.map_injective_iff.mpr (fun _ _ => Value.str.inj) (Value.arr.inj (Option.some.inj tags))
  have floor := minimum_injective (Option.some.inj minimum)
  cases p
  cases q
  simp_all

/-- The compound with its codes as a set. -/
def normal (c : CompoundPolicy) : CompoundPolicy := {c with requiredFindings := sortedSet c.requiredFindings}

/-- The normal form keeps all of a compound, its codes as a set. -/
theorem compound_of_canonical {c d : CompoundPolicy}
    (same : Value.canonical (.obj (compoundFields c)) = Value.canonical (.obj (compoundFields d))) : normal c = normal d := by
  have members := member_of_canonical (compoundFields_distinct c) (compoundFields_distinct d) same
  have name : some (Value.str c.name) = some (.str d.name) := (members (lit "name") :)
  have required : some (Value.canonical (.arr ((sortedSet c.requiredFindings).map .str))) =
      some (Value.canonical (.arr ((sortedSet d.requiredFindings).map .str))) := (members (lit "required_findings") :)
  have contribution : some (Value.int c.contribution) = some (.int d.contribution) := (members (lit "contribution") :)
  have explanation : some (Value.str c.explanation) = some (.str d.explanation) := (members (lit "explanation") :)
  have minimum : some (minimumDecisionValue c.minimumDecision).canonical =
      some (minimumDecisionValue d.minimumDecision).canonical := (members (lit "minimum_decision") :)
  rw [canonical_minimum, canonical_minimum] at minimum
  rw [canonical_texts, canonical_texts] at required
  have texts := List.map_injective_iff.mpr (fun _ _ => Value.str.inj) (Value.arr.inj (Option.some.inj required))
  have floor := minimum_injective (Option.some.inj minimum)
  cases c
  cases d
  simp_all [normal]

/-- What is determined member by member is determined for the whole list. -/
theorem map_eq_of_factors {α β γ : Type} {f : α → β} {g : α → γ} (factors : ∀ x y, f x = f y → g x = g y) {xs ys : List α}
    (same : xs.map f = ys.map f) : xs.map g = ys.map g := by
  induction xs generalizing ys with
  | nil => rw [List.map_eq_nil_iff.mp same.symm]
  | cons x rest ih =>
    cases ys with
    | nil => cases same
    | cons y others =>
      obtain ⟨first,after⟩ := List.cons_eq_cons.mp same
      rw [List.map_cons, List.map_cons, factors x y first, ih after]

section
variable {reg reg' : PolicyRegistry} (same : payload reg = payload reg')
include same

theorem members_same (key : Text) : (member key (normalized reg)).map Value.canonical =
    (member key (normalized reg')).map Value.canonical :=
  member_of_canonical (registryFields_distinct reg) (registryFields_distinct reg') (canonical_of_payload same) key

theorem version_same : reg.version = reg'.version := by
  have version : some (Value.str reg.version) = some (.str reg'.version) := (members_same same (lit "version") :)
  exact Value.str.inj (Option.some.inj version)

theorem policies_perm : reg.policies.Perm reg'.policies := by
  have findings : some (Value.canonical (.arr ((sortedBy (·.findingCode) reg.policies).map fun p => .obj (findingFields p)))) =
      some (Value.canonical (.arr ((sortedBy (·.findingCode) reg'.policies).map fun p => .obj (findingFields p)))) :=
    (members_same same (lit "findings") :)
  rw [Value.canonical, Value.canonical, canonicalItems_eq, canonicalItems_eq, List.map_map, List.map_map] at findings
  have equal := map_eq_of_factors (g := id) (fun _ _ => finding_of_canonical) (Value.arr.inj (Option.some.inj findings))
  rw [List.map_id, List.map_id] at equal
  exact (sortedBy_perm (·.findingCode) reg.policies).symm.trans (equal ▸ sortedBy_perm (·.findingCode) reg'.policies)

theorem compounds_perm : (reg.compounds.map normal).Perm (reg'.compounds.map normal) := by
  have compounds : some (Value.canonical (.arr ((sortedBy (·.name) reg.compounds).map fun c => .obj (compoundFields c)))) =
      some (Value.canonical (.arr ((sortedBy (·.name) reg'.compounds).map fun c => .obj (compoundFields c)))) :=
    (members_same same (lit "compounds") :)
  rw [Value.canonical, Value.canonical, canonicalItems_eq, canonicalItems_eq, List.map_map, List.map_map] at compounds
  have equal := map_eq_of_factors (fun _ _ => compound_of_canonical) (Value.arr.inj (Option.some.inj compounds))
  exact ((sortedBy_perm (·.name) reg.compounds).map normal).symm.trans
    (equal ▸ (sortedBy_perm (·.name) reg'.compounds).map normal)

end

/-! ### The evaluation depends on nothing else -/

/-- A lookup in `compound_by_name`. -/
def compound (reg : PolicyRegistry) (name : Text) : Option CompoundPolicy :=
  reg.compounds.reverse.find? fun c => c.name == name

theorem names_distinct {reg : PolicyRegistry} (structural : structuralChecks reg = .ok ()) :
    (reg.compounds.map (·.name)).Nodup := by
  simp only [structuralChecks,require_bind_ok,forAll_bind_ok] at structural
  exact structural.2.2.2.2.1

/-- Registries that list the same policies, and the same compounds up to the order of their codes. -/
structure SamePolicy (reg reg' : PolicyRegistry) : Prop where
  structural : structuralChecks reg = .ok ()
  structural' : structuralChecks reg' = .ok ()
  version : reg.version = reg'.version
  policies : reg.policies.Perm reg'.policies
  compounds : (reg.compounds.map normal).Perm (reg'.compounds.map normal)

section
variable {reg reg' : PolicyRegistry} (same : SamePolicy reg reg')
include same

theorem findingPolicy_same : reg.findingPolicy = reg'.findingPolicy := by
  funext code
  have distinct : (reg.policies.reverse.map (·.findingCode)).Nodup := by
    rw [List.map_reverse, List.nodup_reverse]
    exact codes_distinct same.structural
  exact find?_perm ((List.reverse_perm _).trans (same.policies.trans (List.reverse_perm _).symm)) distinct code

theorem compound_same (name : Text) : (compound reg name).map normal = (compound reg' name).map normal := by
  have normalized (reg : PolicyRegistry) : (compound reg name).map normal =
      (reg.compounds.reverse.map normal).find? fun c => c.name == name := by
    rw [List.find?_map]
    rfl
  have distinct : ((reg.compounds.reverse.map normal).map (·.name)).Nodup := by
    rw [List.map_map, List.map_reverse, List.nodup_reverse]
    exact names_distinct same.structural
  rw [normalized, normalized]
  refine find?_perm ?_ distinct name
  rw [List.map_reverse, List.map_reverse]
  exact (List.reverse_perm _).trans (same.compounds.trans (List.reverse_perm _).symm)

variable (codes : List Text)

theorem triggered_perm : ((triggeredCompounds reg codes).map normal).Perm ((triggeredCompounds reg' codes).map normal) := by
  have normalized (reg : PolicyRegistry) : (triggeredCompounds reg codes).map normal =
      (reg.compounds.map normal).filter fun c => decide (c.requiredFindings ⊆ codes) := by
    rw [List.filter_map, triggeredCompounds]
    refine congrArg (List.map normal) (List.filter_congr fun c _ => ?_)
    exact decide_eq_decide.mpr ⟨fun sub code inside => sub (mem_sortedSet.mp inside),
      fun sub code inside => sub (mem_sortedSet.mpr inside)⟩
  rw [normalized, normalized]
  exact same.compounds.filter _

/-- What does not depend on the order of a compound's codes is the same of the triggered compounds, up to their order. -/
theorem triggered_map_perm {β : Type} (f : CompoundPolicy → β) (blind : f ∘ normal = f) :
    ((triggeredCompounds reg codes).map f).Perm ((triggeredCompounds reg' codes).map f) := by
  have mapped := (triggered_perm same codes).map f
  rwa [List.map_map, List.map_map, blind] at mapped

theorem triggered_names : ((triggeredCompounds reg codes).map (·.name)).Nodup :=
  (names_distinct same.structural).sublist (List.filter_sublist.map _)

theorem policiesOf_same : policiesOf reg codes = policiesOf reg' codes := by
  rw [policiesOf, policiesOf, findingPolicy_same same]

theorem contributionsOf_same : contributionsOf reg codes = contributionsOf reg' codes := by
  have compounds := triggered_map_perm same codes compoundContribution rfl
  have distinct : (((triggeredCompounds reg codes).map compoundContribution).map (·.code)).Nodup := by
    rw [List.map_map]
    exact triggered_names same codes
  have sorted := sortedBy_between compounds distinct ((policiesOf reg codes).map findingContribution) []
  rw [List.append_nil, List.append_nil] at sorted
  rw [contributionsOf, contributionsOf, sorted, policiesOf_same same]

theorem riskScoreOf_same : riskScoreOf reg codes = riskScoreOf reg' codes := by
  rw [riskScoreOf, riskScoreOf, contributionsOf_same same]

theorem decisionReasonsOf_same (completeness : List AnalysisReason) :
    decisionReasonsOf reg codes completeness = decisionReasonsOf reg' codes completeness := by
  have compounds := triggered_map_perm same codes (fun c => (⟨c.name,c.explanation⟩ : PolicyReason)) rfl
  have distinct : (((triggeredCompounds reg codes).map fun c => (⟨c.name,c.explanation⟩ : PolicyReason)).map (·.code)).Nodup := by
    rw [List.map_map]
    exact triggered_names same codes
  rw [decisionReasonsOf, decisionReasonsOf, sortedBy_between compounds distinct, policiesOf_same same]

theorem hardBlockReasonsOf_same : hardBlockReasonsOf reg codes = hardBlockReasonsOf reg' codes := by
  rw [hardBlockReasonsOf, hardBlockReasonsOf, policiesOf_same same]

theorem mandatoryReasonsOf_same (completeness : List AnalysisReason) :
    mandatoryReasonsOf reg codes completeness = mandatoryReasonsOf reg' codes completeness := by
  have quarantined := ((triggered_perm same codes).filter fun c => decide (c.minimumDecision = some .QUARANTINE)).map (·.name)
  rw [List.filter_map, List.filter_map, List.map_map, List.map_map] at quarantined
  rw [mandatoryReasonsOf, mandatoryReasonsOf, policiesOf_same same]
  refine sortedSet_congr fun code => ?_
  rw [List.mem_append, List.mem_append, List.mem_append, List.mem_append]
  exact or_congr_left (or_congr_right quarantined.mem_iff)

theorem compoundRules_same : sortedBy id ((triggeredCompounds reg codes).map (·.name)) =
    sortedBy id ((triggeredCompounds reg' codes).map (·.name)) := by
  refine sortedBy_perm_eq (triggered_map_perm same codes (·.name) rfl) ?_
  rw [List.map_id]
  exact triggered_names same codes

theorem evaluationFields_same (pinned : reg.fingerprint = reg'.fingerprint) (completeness : List AnalysisReason)
    (riskBand : RiskBand) (evaluatedAt : DateTime) : evaluationFields reg codes completeness riskBand evaluatedAt =
      evaluationFields reg' codes completeness riskBand evaluatedAt := by
  simp only [evaluationFields,hardBlockReasonsOf_same same,mandatoryReasonsOf_same same,riskScoreOf_same same,
    compoundRules_same same,decisionReasonsOf_same same,contributionsOf_same same,same.version,pinned]

omit codes in
/-- Registries with the same policy, pinned to one fingerprint, evaluate every result alike. -/
theorem evaluatePolicy_same (digest : List UInt8 → Text) (hashed : payload reg = payload reg')
    (pinned : reg.fingerprint = reg'.fingerprint) (result : Option AnalysisResult) (failureCode : Option Text)
    (scanState : ScanState) (evaluatedAt : Option DateTime) (now : Int) :
    evaluatePolicy digest reg result failureCode scanState evaluatedAt now =
      evaluatePolicy digest reg' result failureCode scanState evaluatedAt now := by
  have fingerprints : computePolicyFingerprint digest reg = computePolicyFingerprint digest reg' := congrArg digest hashed
  have validated : validatePolicyRegistry digest reg = validatePolicyRegistry digest reg' := by
    rw [validatePolicyRegistry, validatePolicyRegistry, same.structural, same.structural', fingerprints, pinned]
  simp only [evaluatePolicy,validated,findingPolicy_same same,contributionsOf_same same,riskScoreOf_same same,
    decisionReasonsOf_same same,evaluationFields_same same _ pinned]

end

/-- The order of a registry's entries has no part in its payload. -/
theorem payload_reordered {reg : PolicyRegistry} (structural : structuralChecks reg = .ok ()) {policies : List FindingPolicy}
    {compounds : List CompoundPolicy} (policiesPerm : policies.Perm reg.policies) (compoundsPerm : compounds.Perm reg.compounds) :
    payload {reg with policies := policies, compounds := compounds} = payload reg := by
  have findings := sortedBy_perm_eq policiesPerm.symm (codes_distinct structural)
  have sorted := sortedBy_perm_eq compoundsPerm.symm (names_distinct structural)
  rw [payload, payload, normalized_eq, normalized_eq, registryFields, registryFields, findings, sorted]

/-- Registries that pass the structural checks and have the same payload have the same policy for every code and the same
    compounds by name, and evaluate every result alike; reordering a registry leaves its payload as it is. -/
theorem payload_identifies_policy (digest : List UInt8 → Text) (reg reg' : PolicyRegistry)
    (structural : structuralChecks reg = .ok ()) (structural' : structuralChecks reg' = .ok ()) :
    (payload reg = payload reg' →
      (∀ code, reg.findingPolicy code = reg'.findingPolicy code) ∧
      (∀ name, (compound reg name).map normal = (compound reg' name).map normal) ∧
      (reg.fingerprint = reg'.fingerprint → ∀ result failureCode scanState evaluatedAt now,
        evaluatePolicy digest reg result failureCode scanState evaluatedAt now =
          evaluatePolicy digest reg' result failureCode scanState evaluatedAt now)) ∧
    ∀ policies compounds, policies.Perm reg.policies → compounds.Perm reg.compounds →
      payload {reg with policies := policies, compounds := compounds} = payload reg := by
  refine ⟨fun hashed => ?_,fun _ _ => payload_reordered structural⟩
  have same : SamePolicy reg reg' :=
    ⟨structural,structural',version_same hashed,policies_perm hashed,compounds_perm hashed⟩
  exact ⟨congrFun (findingPolicy_same same),compound_same same,fun pinned => evaluatePolicy_same same digest hashed pinned⟩

/-- The shipped registry in the opposite order. -/
def reversed : PolicyRegistry :=
  {shipped with policies := shipped.policies.reverse, compounds := shipped.compounds.reverse}

theorem reversed_structural : structuralChecks reversed = .ok () := by
  have checked := shipped_structural
  simp only [structuralChecks,require_bind_ok,forAll_bind_ok,forAll_ok] at checked ⊢
  obtain ⟨version,coverage,codes,policies,names,compounds⟩ := checked
  have turned : reversed.codes = shipped.codes.reverse := List.map_reverse
  refine ⟨version,?_,?_,fun p listed => policies p (List.mem_reverse.mp listed),?_,
    fun c listed => compounds c (List.mem_reverse.mp listed)⟩
  · rw [turned, ← coverage]
    exact sortedSet_congr fun code => List.mem_reverse
  · rw [turned, List.nodup_reverse]
    exact codes
  · exact (List.map_reverse (f := CompoundPolicy.name) (l := shipped.compounds)) ▸ List.nodup_reverse.mpr names

theorem reversed_evaluates : evaluatePolicy sha256 shipped none none .ANALYZING none 0 =
    evaluatePolicy sha256 reversed none none .ANALYZING none 0 :=
  have identified := payload_identifies_policy sha256 shipped reversed shipped_structural reversed_structural
  have hashed : payload reversed = payload shipped :=
    identified.2 _ _ (List.reverse_perm _) (List.reverse_perm _)
  (identified.1 hashed.symm).2.2 rfl none none .ANALYZING none 0

end DocGuard.Fingerprint
