import DocGuard.Fingerprint

/-!
Registries with all texts of Python. A `str` may hold surrogates, which no text of
characters does; JSON escapes them one by one, so that two of them and the character
that they encode are written alike. The registries without surrogates are those of
the model: they have the same payload and pass the same checks.
-/
namespace DocGuard.WideTexts
open DocGuard.Ordered DocGuard.Checks DocGuard.Contract DocGuard.Domain DocGuard.Registry
open DocGuard.Json (Value commas field unicodeEscape intText utf8 escapeChar)

/-- A `str`: its code points, surrogates among them. -/
abbrev Str := List (Fin 0x110000)

theorem toNat_lt (c : Char) : c.toNat < 0x110000 := by
  rcases c.valid with low | ⟨_,high⟩
  · exact low.trans (by decide)
  · exact high

def point (c : Char) : Fin 0x110000 := ⟨c.toNat,toNat_lt c⟩

/-- The text of characters as a `str`. -/
def str (text : Text) : Str := text.map point

/-- Not a surrogate. -/
def Scalar (p : Fin 0x110000) : Prop := p.val < 0xd800 ∨ 0xdfff < p.val

instance (p : Fin 0x110000) : Decidable (Scalar p) := by
  unfold Scalar; infer_instance

theorem point_scalar (c : Char) : Scalar (point c) :=
  c.valid.imp id And.left

theorem point_strictMono : StrictMono point := fun _ _ less => less

theorem exists_point {p : Fin 0x110000} (scalar : Scalar p) : ∃ c, point c = p := by
  have valid : p.val.isValidChar := scalar.imp id fun high => ⟨high,p.isLt⟩
  exact ⟨Char.ofNat p.val,Fin.ext ((congrArg Char.toNat (dif_pos valid)).trans rfl)⟩

theorem str_injective : Function.Injective str := List.map_injective_iff.mpr point_strictMono.injective

/-- A list whose members all come from somewhere comes from a list. -/
theorem exists_map {α β : Type} {f : α → β} {xs : List β} (found : ∀ x ∈ xs, ∃ a, f a = x) : ∃ ys : List α, ys.map f = xs := by
  have reached : xs ∈ Set.range (List.map f) := by
    rw [Set.range_list_map]
    exact found
  exact reached

theorem exists_str {s : Str} (scalar : ∀ p ∈ s, Scalar p) : ∃ text, str text = s :=
  exists_map fun p member => exists_point (scalar p member)

theorem str_lt_iff (a b : Text) : str a < str b ↔ a < b := by
  induction a generalizing b with
  | nil => cases b <;> simp [str]
  | cons c rest ih =>
    cases b with
    | nil => simp [str]
    | cons d others =>
      have same : point c = point d ↔ c = d := point_strictMono.injective.eq_iff
      have tails : rest.map point < others.map point ↔ rest < others := ih others
      simp [str,List.cons_lt_cons_iff,point_strictMono.lt_iff_lt,same,tails]

theorem str_le_iff (a b : Text) : str a ≤ str b ↔ a ≤ b := by
  rw [← not_lt, ← not_lt, str_lt_iff]

/-! ### The canonical text -/

/-- One code point of a string, with `ensure_ascii`. -/
def escapePoint (n : Nat) : Text :=
  if n = 34 then ['\\','"'] else
  if n = 92 then ['\\','\\'] else
  if n = 10 then ['\\','n'] else
  if n = 13 then ['\\','r'] else
  if n = 9 then ['\\','t'] else
  if n = 8 then ['\\','b'] else
  if n = 12 then ['\\','f'] else
  if n < 32 then unicodeEscape n else
  if 126 < n then unicodeEscape n else [Char.ofNat n]

def quote (s : Str) : Text := '"' :: (s.flatMap fun p => escapePoint p.val) ++ ['"']

theorem escapePoint_char (c : Char) : escapePoint (point c).val = escapeChar true c := by
  have named {n : Nat} {d : Char} (code : d.toNat = n) : c.toNat = n ↔ c = d := code ▸ Char.toNat_inj
  show escapePoint c.toNat = _
  unfold escapePoint escapeChar
  refine if_congr (named rfl) rfl (if_congr (named rfl) rfl (if_congr (named rfl) rfl (if_congr (named rfl) rfl
    (if_congr (named rfl) rfl ?_))))
  rw [Char.ofNat_toNat, Bool.true_and]
  simp only [decide_eq_true_eq]

theorem quote_str (text : Text) : quote (str text) = Json.quote true text := by
  have escaped : (str text).flatMap (fun p => escapePoint p.val) = text.flatMap (escapeChar true) := by
    rw [str, List.flatMap_map]
    exact List.flatMap_congr fun c _ => escapePoint_char c
  rw [quote, escaped, Json.quote]

/-- A JSON value whose strings are any texts of Python; the keys of its objects are literals. -/
inductive Wide where
  | null
  | bool (b : Bool)
  | int (n : Int)
  | float (text : Text)
  | str (s : Str)
  | arr (items : List Wide)
  | obj (fields : List (Text × Wide))

mutual
/-- `json.dumps(value, separators=(",", ":"), sort_keys=True)` -/
def dumps : Wide → Text
  | .null => ['n','u','l','l']
  | .bool true => ['t','r','u','e']
  | .bool false => ['f','a','l','s','e']
  | .int n => intText n
  | .float text => text
  | .str s => quote s
  | .arr items => '[' :: commas (dumpsItems items) ++ [']']
  | .obj fields => '{' :: commas ((sortedBy Prod.fst (dumpsFields fields)).map (field true)) ++ ['}']
def dumpsItems : List Wide → List Text
  | [] => []
  | item :: rest => dumps item :: dumpsItems rest
def dumpsFields : List (Text × Wide) → List (Text × Text)
  | [] => []
  | (key,value) :: rest => (key,dumps value) :: dumpsFields rest
end

mutual
def widen : Value → Wide
  | .null => .null
  | .bool b => .bool b
  | .int n => .int n
  | .float text => .float text
  | .str s => .str (str s)
  | .arr items => .arr (widenItems items)
  | .obj fields => .obj (widenFields fields)
def widenItems : List Value → List Wide
  | [] => []
  | item :: rest => widen item :: widenItems rest
def widenFields : List (Text × Value) → List (Text × Wide)
  | [] => []
  | (key,value) :: rest => (key,widen value) :: widenFields rest
end

mutual
/-- A value without surrogates is written as before. -/
theorem dumps_widen : ∀ value, dumps (widen value) = Json.dumps true value
  | .null | .bool true | .bool false | .int _ | .float _ => by simp [widen,dumps,Json.dumps]
  | .str s => by rw [widen, dumps, Json.dumps, quote_str]
  | .arr items => by rw [widen, dumps, Json.dumps, dumpsItems_widen items]
  | .obj fields => by rw [widen, dumps, Json.dumps, dumpsFields_widen fields]
theorem dumpsItems_widen : ∀ items, dumpsItems (widenItems items) = Json.dumpsItems true items
  | [] => rfl
  | item :: rest => by
    rw [widenItems, dumpsItems, Json.dumpsItems, dumps_widen item, dumpsItems_widen rest]
theorem dumpsFields_widen : ∀ fields, dumpsFields (widenFields fields) = Json.dumpsFields true fields
  | [] => rfl
  | (key,value) :: rest => by
    rw [widenFields, dumpsFields, Json.dumpsFields, dumps_widen value, dumpsFields_widen rest]
end

theorem dumpsItems_eq (items : List Wide) : dumpsItems items = items.map dumps := by
  induction items with
  | nil => rfl
  | cons item rest ih => rw [dumpsItems, ih, List.map_cons]

theorem widenItems_eq (items : List Value) : widenItems items = items.map widen := by
  induction items with
  | nil => rfl
  | cons item rest ih => rw [widenItems, ih, List.map_cons]

/-! ### Registries -/

structure FindingPolicy where
  findingCode : Text
  contribution : Int
  explanation : Str
  minimumDecision : Option Decision
  hardBlock : Bool
  tags : List Str

structure CompoundPolicy where
  name : Str
  requiredFindings : List Text
  contribution : Int
  explanation : Str
  minimumDecision : Option Decision

/-- A registry. Its version and its codes are characters: the structural checks let nothing else pass. -/
structure PolicyRegistry where
  version : Text
  policies : List FindingPolicy
  compounds : List CompoundPolicy

def PolicyRegistry.findingPolicy (reg : PolicyRegistry) (code : Text) : Option FindingPolicy :=
  reg.policies.reverse.find? (fun p => p.findingCode == code)

def PolicyRegistry.codes (reg : PolicyRegistry) : List Text := reg.policies.map (·.findingCode)

def checkFindingPolicy (p : FindingPolicy) : Except Str Unit := do
  require (0 ≤ p.contribution ∧ p.contribution ≤ 100) (str (lit "invalid finding policy: " ++ p.findingCode))
  require (1 ≤ p.explanation.length ∧ p.explanation.length ≤ 500)
    (str (lit "invalid policy explanation: " ++ p.findingCode))
  require (p.minimumDecision ≠ some .ALLOW) (str (lit "redundant minimum decision: " ++ p.findingCode))
  require (p.hardBlock = decide (p.minimumDecision = some .BLOCK))
    (str (lit "hard-block policy is inconsistent: " ++ p.findingCode))

def checkCompoundPolicy (c : CompoundPolicy) : Except Str Unit := do
  require (c.requiredFindings ≠ [] ∧ ∀ code ∈ c.requiredFindings, code ∈ knownCodes)
    (str (lit "invalid compound findings: ") ++ c.name)
  require (0 ≤ c.contribution ∧ c.contribution ≤ 100) (str (lit "invalid compound contribution: ") ++ c.name)
  require (c.minimumDecision ≠ some .ALLOW ∧ c.minimumDecision ≠ some .BLOCK)
    (str (lit "invalid compound minimum decision: ") ++ c.name)

/-- The checks of `validate_policy_registry` before the one on the fingerprint. -/
def structuralChecks (reg : PolicyRegistry) : Except Str Unit := do
  require (versionMatches reg.version) (str (lit "policy version is invalid"))
  require (sortedSet reg.codes = sortedSet knownCodes) (str (lit "finding policy coverage is not exact"))
  require reg.codes.Nodup (str (lit "duplicate finding policy code"))
  forAll checkFindingPolicy reg.policies
  require (reg.compounds.map (·.name)).Nodup (str (lit "duplicate compound policy name"))
  forAll checkCompoundPolicy reg.compounds

def minimumDecisionValue : Option Decision → Wide
  | some d => .str (str d.value)
  | none => .null

def findingValue (p : FindingPolicy) : Wide :=
  .obj [(lit "code",.str (str p.findingCode)),(lit "contribution",.int p.contribution),
    (lit "explanation",.str p.explanation),(lit "minimum_decision",minimumDecisionValue p.minimumDecision),
    (lit "hard_block",.bool p.hardBlock),(lit "tags",.arr (p.tags.map .str))]

def compoundValue (c : CompoundPolicy) : Wide :=
  .obj [(lit "name",.str c.name),(lit "required_findings",.arr ((sortedSet c.requiredFindings).map fun code => .str (str code))),
    (lit "contribution",.int c.contribution),(lit "explanation",.str c.explanation),
    (lit "minimum_decision",minimumDecisionValue c.minimumDecision)]

/-- The normal form that `compute_policy_fingerprint` hashes. -/
def normalized (reg : PolicyRegistry) : Wide :=
  .obj [(lit "version",.str (str reg.version)),
    (lit "findings",.arr ((sortedBy (·.findingCode) reg.policies).map findingValue)),
    (lit "compounds",.arr ((sortedBy (·.name) reg.compounds).map compoundValue))]

/-- The bytes that are hashed. -/
def payload (reg : PolicyRegistry) : List UInt8 := utf8 (dumps (normalized reg))

/-! ### Registries without surrogates -/

def widePolicy (p : Registry.FindingPolicy) : FindingPolicy :=
  ⟨p.findingCode,p.contribution,str p.explanation,p.minimumDecision,p.hardBlock,p.tags.map str⟩

def wideCompound (c : Registry.CompoundPolicy) : CompoundPolicy :=
  ⟨str c.name,c.requiredFindings,c.contribution,str c.explanation,c.minimumDecision⟩

/-- A registry of characters among those of any texts. -/
def wide (reg : Registry.PolicyRegistry) : PolicyRegistry :=
  ⟨reg.version,reg.policies.map widePolicy,reg.compounds.map wideCompound⟩

theorem sortedBy_map {α β γ δ : Type} [LinearOrder α] [LinearOrder β] {key : γ → α} {key' : δ → β} {f : γ → δ}
    (monotone : ∀ x y, key' (f x) ≤ key' (f y) ↔ key x ≤ key y) (xs : List γ) :
    sortedBy key' (xs.map f) = (sortedBy key xs).map f :=
  (List.map_insertionSort (fun x y => key x ≤ key y) (fun x y => key' x ≤ key' y) f xs
    fun x _ y _ => (monotone x y).symm).symm

theorem minimumDecisionValue_wide (minimum : Option Decision) :
    minimumDecisionValue minimum = widen (Registry.minimumDecisionValue minimum) := by
  cases minimum <;> rfl

theorem findingValue_wide (p : Registry.FindingPolicy) :
    findingValue (widePolicy p) = widen (.obj (Fingerprint.findingFields p)) := by
  have tags : (p.tags.map str).map Wide.str = widenItems (p.tags.map .str) := by
    rw [widenItems_eq, List.map_map, List.map_map]
    exact List.map_congr_left fun _ _ => rfl
  simp only [findingValue,widePolicy,Fingerprint.findingFields,widen,widenFields,tags,minimumDecisionValue_wide]

theorem compoundValue_wide (c : Registry.CompoundPolicy) :
    compoundValue (wideCompound c) = widen (.obj (Fingerprint.compoundFields c)) := by
  have required : (sortedSet c.requiredFindings).map (fun code => Wide.str (str code)) =
      widenItems ((sortedSet c.requiredFindings).map .str) := by
    rw [widenItems_eq, List.map_map]
    exact List.map_congr_left fun _ _ => rfl
  simp only [compoundValue,wideCompound,Fingerprint.compoundFields,widen,widenFields,required,minimumDecisionValue_wide]

theorem normalized_wide (reg : Registry.PolicyRegistry) : normalized (wide reg) = widen (Registry.normalized reg) := by
  have policies : sortedBy (·.findingCode) (reg.policies.map widePolicy) =
      (sortedBy (·.findingCode) reg.policies).map widePolicy := sortedBy_map (fun _ _ => Iff.rfl) _
  have compounds : sortedBy (·.name) (reg.compounds.map wideCompound) =
      (sortedBy (·.name) reg.compounds).map wideCompound := by
    refine sortedBy_map (fun x y => ?_) _
    exact str_le_iff x.name y.name
  have findingValues : (fun p => findingValue (widePolicy p)) = fun p => widen (.obj (Fingerprint.findingFields p)) :=
    funext findingValue_wide
  have compoundValues : (fun c => compoundValue (wideCompound c)) = fun c => widen (.obj (Fingerprint.compoundFields c)) :=
    funext compoundValue_wide
  rw [Fingerprint.normalized_eq]
  simp only [normalized,wide,Fingerprint.registryFields,widen,widenFields,policies,compounds,widenItems_eq,List.map_map,
    Function.comp_def,findingValues,compoundValues]

/-- A registry without surrogates has the payload of the model. -/
theorem payload_wide (reg : Registry.PolicyRegistry) : payload (wide reg) = Fingerprint.payload reg := by
  rw [payload, normalized_wide, dumps_widen, Fingerprint.payload]

/-- A registry without surrogates passes the structural checks of the model, if any. -/
theorem structuralChecks_wide (reg : Registry.PolicyRegistry) :
    structuralChecks (wide reg) = .ok () ↔ Registry.structuralChecks reg = .ok () := by
  have codes : (wide reg).codes = reg.codes := by
    rw [PolicyRegistry.codes, wide, List.map_map]
    rfl
  have names : ((wide reg).compounds.map (·.name)).Nodup ↔ (reg.compounds.map (·.name)).Nodup := by
    rw [wide, List.map_map]
    show (reg.compounds.map (str ∘ (·.name))).Nodup ↔ _
    rw [← List.map_map, List.nodup_map_iff str_injective]
  have policies (p : Registry.FindingPolicy) :
      checkFindingPolicy (widePolicy p) = .ok () ↔ Registry.checkFindingPolicy p = .ok () := by
    simp only [checkFindingPolicy,Registry.checkFindingPolicy,require_bind_ok,require_ok]
    simp only [widePolicy,lengthWithin,str,List.length_map]
    rfl
  have compounds (c : Registry.CompoundPolicy) :
      checkCompoundPolicy (wideCompound c) = .ok () ↔ Registry.checkCompoundPolicy c = .ok () := by
    simp only [checkCompoundPolicy,Registry.checkCompoundPolicy,require_bind_ok,require_ok]
    rfl
  simp only [structuralChecks,Registry.structuralChecks,require_bind_ok,forAll_bind_ok,forAll_ok,codes,names]
  simp only [wide,List.forall_mem_map,policies,compounds]

/-- No text of the registry has a surrogate. -/
structure PolicyRegistry.Scalars (reg : PolicyRegistry) : Prop where
  explanations : ∀ p ∈ reg.policies, ∀ c ∈ p.explanation, Scalar c
  tags : ∀ p ∈ reg.policies, ∀ tag ∈ p.tags, ∀ c ∈ tag, Scalar c
  names : ∀ c ∈ reg.compounds, ∀ d ∈ c.name, Scalar d
  compounds : ∀ c ∈ reg.compounds, ∀ d ∈ c.explanation, Scalar d

/-- The registries of the model are those without surrogates. -/
theorem exists_wide {reg : PolicyRegistry} (scalars : reg.Scalars) (fingerprint : Text) :
    ∃ model : Registry.PolicyRegistry, wide model = reg ∧ model.fingerprint = fingerprint := by
  have policies : ∃ ps : List Registry.FindingPolicy, ps.map widePolicy = reg.policies := by
    refine exists_map fun p member => ?_
    obtain ⟨explanation,spelled⟩ := exists_str (scalars.explanations p member)
    obtain ⟨tags,listed⟩ := exists_map fun tag listed => exists_str (scalars.tags p member tag listed)
    exact ⟨⟨p.findingCode,p.contribution,explanation,p.minimumDecision,p.hardBlock,tags⟩,by
      rw [widePolicy, spelled, listed]⟩
  have compounds : ∃ cs : List Registry.CompoundPolicy, cs.map wideCompound = reg.compounds := by
    refine exists_map fun c member => ?_
    obtain ⟨name,named⟩ := exists_str (scalars.names c member)
    obtain ⟨explanation,spelled⟩ := exists_str (scalars.compounds c member)
    exact ⟨⟨name,c.requiredFindings,c.contribution,explanation,c.minimumDecision⟩,by
      rw [wideCompound, spelled, named]⟩
  obtain ⟨ps,listed⟩ := policies
  obtain ⟨cs,listed'⟩ := compounds
  exact ⟨⟨reg.version,ps,cs,fingerprint⟩,by rw [wide, listed, listed'],rfl⟩

/-! ### What is written alike -/

/-- The registry with another explanation of a code. -/
def explain (code : Text) (explanation : Str) (p : FindingPolicy) : FindingPolicy :=
  if p.findingCode = code then { p with explanation := explanation } else p

def explained (code : Text) (explanation : Str) (reg : PolicyRegistry) : PolicyRegistry :=
  { reg with policies := reg.policies.map (explain code explanation) }

theorem explain_code (code : Text) (explanation : Str) (p : FindingPolicy) :
    (explain code explanation p).findingCode = p.findingCode := by
  unfold explain
  split <;> rfl

theorem dumps_explain {code : Text} {first second : Str} (alike : quote first = quote second) (p : FindingPolicy) :
    dumps (findingValue (explain code first p)) = dumps (findingValue (explain code second p)) := by
  have explained (explanation : Str) : dumps (findingValue { p with explanation := explanation }) =
      '{' :: commas ((sortedBy Prod.fst ((lit "code",quote (str p.findingCode)) :: (lit "contribution",intText p.contribution) ::
        (lit "explanation",quote explanation) :: dumpsFields [(lit "minimum_decision",minimumDecisionValue p.minimumDecision),
          (lit "hard_block",.bool p.hardBlock),(lit "tags",.arr (p.tags.map .str))])).map (field true)) ++ ['}'] := by
    rw [findingValue, dumps, dumpsFields, dumpsFields, dumpsFields, dumps, dumps, dumps]
  unfold explain
  by_cases same : p.findingCode = code
  · rw [if_pos same, if_pos same, explained, explained, alike]
  · rw [if_neg same, if_neg same]

/-- Explanations that are written alike are hashed alike. -/
theorem payload_explained {code : Text} {first second : Str} (alike : quote first = quote second) (reg : PolicyRegistry) :
    payload (explained code first reg) = payload (explained code second reg) := by
  have sorted (explanation : Str) : sortedBy (·.findingCode) (explained code explanation reg).policies =
      (sortedBy (·.findingCode) reg.policies).map (explain code explanation) := by
    refine sortedBy_map (fun x y => ?_) _
    rw [explain_code, explain_code]
  have written : dumpsItems ((sortedBy (·.findingCode) (explained code first reg).policies).map findingValue) =
      dumpsItems ((sortedBy (·.findingCode) (explained code second reg).policies).map findingValue) := by
    rw [dumpsItems_eq, dumpsItems_eq, sorted, sorted, List.map_map, List.map_map, List.map_map, List.map_map]
    exact List.map_congr_left fun p _ => dumps_explain alike p
  rw [payload, payload, normalized, normalized]
  simp only [dumps,dumpsFields,written]
  rfl

/-- An explanation of a length in range passes the checks in place of another. -/
theorem structuralChecks_explained {code : Text} {explanation : Str} {reg : PolicyRegistry}
    (within : 1 ≤ explanation.length ∧ explanation.length ≤ 500) (structural : structuralChecks reg = .ok ()) :
    structuralChecks (explained code explanation reg) = .ok () := by
  have codes : (explained code explanation reg).codes = reg.codes := by
    rw [PolicyRegistry.codes, explained, List.map_map]
    exact List.map_congr_left fun p _ => explain_code code explanation p
  have policies (p : FindingPolicy) (checked : checkFindingPolicy p = .ok ()) :
      checkFindingPolicy (explain code explanation p) = .ok () := by
    unfold explain
    split
    · simp only [checkFindingPolicy,require_bind_ok,require_ok] at checked ⊢
      exact ⟨checked.1,within,checked.2.2⟩
    · exact checked
  simp only [structuralChecks,require_bind_ok,forAll_bind_ok,forAll_ok,codes] at structural ⊢
  refine ⟨structural.1,structural.2.1,structural.2.2.1,?_,structural.2.2.2.2⟩
  exact List.forall_mem_map.mpr fun p listed => policies p (structural.2.2.2.1 p listed)

/-- The shipped registry with another explanation of PDF forms. -/
def forms (explanation : Str) : PolicyRegistry := explained (lit "PDF_ACROFORM") explanation (wide shipped)

/-- Two registries pass the structural checks, have one payload, and explain a finding differently: by the two
    surrogates D83D and DE00, and by the character 1F600 that they encode. -/
theorem surrogates_collide : ∃ reg reg', structuralChecks reg = .ok () ∧ structuralChecks reg' = .ok () ∧
    payload reg = payload reg' ∧
    (reg.findingPolicy (lit "PDF_ACROFORM")).map (·.explanation) = some [0xd83d,0xde00] ∧
    (reg'.findingPolicy (lit "PDF_ACROFORM")).map (·.explanation) = some [0x1f600] := by
  have structural : structuralChecks (wide shipped) = .ok () := (structuralChecks_wide shipped).mpr shipped_structural
  have alike : quote [0xd83d,0xde00] = quote [0x1f600] := by decide +kernel
  exact ⟨forms [0xd83d,0xde00],forms [0x1f600],structuralChecks_explained (by decide) structural,
    structuralChecks_explained (by decide) structural,payload_explained alike _,by decide +kernel,by decide +kernel⟩

end DocGuard.WideTexts
