import DocGuard.Domain

/-!
The payloads of findings as the worker builds them from the shared registry.
-/
namespace DocGuard.Findings
open DocGuard.Contract DocGuard.Domain
open DocGuard.Json (Value)

/-- The fields of a JSON object. -/
abbrev Metadata := List (Text × Value)

/-- `finding_payload` -/
def findingPayload (code : Text) (metadata : Metadata) (registered : (findingDefinition code).isSome) : FindingFields :=
  let definition := (findingDefinition code).get registered
  { code := definition.code
    title := definition.title
    description := definition.description
    category := definition.category
    severity := definition.defaultSeverity
    scoreDelta := 0
    mitreTechniques := definition.mitreTechniques
    metadata }

/-- `yara_finding_payload`, for a rule of the manifest -/
def yaraFindingPayload (rule : YaraRuleDefinition) (metadata : Metadata)
    (registered : (findingDefinition rule.findingCode).isSome) : FindingFields :=
  { findingPayload rule.findingCode metadata registered with mitreTechniques := rule.mitreTechniques }

theorem findingPayload_code (code : Text) (metadata : Metadata) (registered : (findingDefinition code).isSome) :
    (findingPayload code metadata registered).code = code := by
  obtain ⟨definition,found⟩ := Option.isSome_iff_exists.mp registered
  have given : (findingDefinition code).get registered = definition := Option.get_of_eq_some registered found
  rw [findingPayload]
  dsimp only
  rw [given]
  exact findingDefinition_code found

end DocGuard.Findings
