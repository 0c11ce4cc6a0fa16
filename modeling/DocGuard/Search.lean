import DocGuard.Text

/-!
Depth-first search with a bound on the depth, over any graph: each node is looked at
where the search meets it first, and a node that it meets beyond the bound leaves a
mark only. Where a node that lies at two depths does not lead beyond the bound from
the deeper one, what is found does not depend on the order of the successors.
-/
namespace DocGuard.Search

variable {α : Type}

/-- The nodes found so far with the depth at which they were met, the last first, and the mark. -/
structure Found (α : Type) where
  nodes : List (α × Nat) := []
  cut : Bool := false

def Found.names (found : Found α) : List α := found.nodes.map Prod.fst

/-! ### Where nodes lie -/

/-- A node lies at a depth below the starts. -/
inductive Lies (next : α → List α) (starts : List α) : Nat → α → Prop where
  | start {a : α} : a ∈ starts → Lies next starts 1 a
  | step {depth : Nat} {a b : α} : Lies next starts depth a → b ∈ next a → Lies next starts (depth + 1) b

/-- A node leads to another in so many steps. -/
inductive Leads (next : α → List α) (a : α) : Nat → α → Prop where
  | here : Leads next a 0 a
  | step {steps : Nat} {b c : α} : Leads next a steps b → c ∈ next b → Leads next a (steps + 1) c

variable {next : α → List α} {starts : List α} {bound : Nat}

/-! ### What a visit adds -/

/-- A node met at a depth is done: its successors are found, or leave the mark where the bound is passed. -/
def Done (next : α → List α) (bound : Nat) (found : Found α) (node : α × Nat) : Prop :=
  ∀ b ∈ next node.1, if node.2 < bound then b ∈ found.names else found.cut = true

/-- From one state of the search to a later one: nodes and the mark stay, new nodes are done and lie where they were
    met, and a new mark comes from a node beyond the bound. -/
structure Extends (next : α → List α) (starts : List α) (bound : Nat) (before after : Found α) : Prop where
  nodes : ∃ new, after.nodes = new ++ before.nodes ∧ ∀ node ∈ new, Done next bound after node ∧
    node.2 ≤ bound ∧ Lies next starts node.2 node.1
  distinct : before.names.Nodup → after.names.Nodup
  cut : before.cut = true → after.cut = true
  marked : after.cut = true → before.cut = true ∨ ∃ b, Lies next starts (bound + 1) b

theorem Extends.names {before after : Found α} (ext : Extends next starts bound before after) {a : α}
    (known : a ∈ before.names) : a ∈ after.names := by
  obtain ⟨new,nodes,_⟩ := ext.nodes
  rw [Found.names, nodes, List.map_append]
  exact List.mem_append_right _ known

theorem Done.extends {before after : Found α} (ext : Extends next starts bound before after) {node : α × Nat}
    (done : Done next bound before node) : Done next bound after node := by
  intro b member
  have found := done b member
  split at found
  · rename_i within
    rw [if_pos within]
    exact ext.names found
  · rename_i within
    rw [if_neg within]
    exact ext.cut found

theorem extends_refl (found : Found α) : Extends next starts bound found found :=
  ⟨⟨[],rfl,nofun⟩,id,id,Or.inl⟩

theorem Extends.trans {first second third : Found α} (one : Extends next starts bound first second)
    (two : Extends next starts bound second third) : Extends next starts bound first third := by
  obtain ⟨new,nodes,done⟩ := one.nodes
  obtain ⟨newer,nodes',done'⟩ := two.nodes
  refine ⟨⟨newer ++ new,by rw [nodes', nodes, List.append_assoc],?_⟩,two.distinct ∘ one.distinct,two.cut ∘ one.cut,?_⟩
  · intro node member
    rcases List.mem_append.mp member with member | member
    · exact done' node member
    · exact ⟨(done node member).1.extends two,(done node member).2⟩
  · intro cut
    rcases two.marked cut with cut | beyond
    · exact one.marked cut
    · exact Or.inr beyond

/-- A node that is met is found, or leaves the mark when no level is left. -/
def Met (levels : Nat) (found : Found α) (a : α) : Prop :=
  if 0 < levels then a ∈ found.names else found.cut = true

theorem Met.extends {levels : Nat} {before after : Found α} {a : α} (ext : Extends next starts bound before after)
    (met : Met levels before a) : Met levels after a := by
  unfold Met at met ⊢
  split at met
  · rename_i some
    rw [if_pos some]
    exact ext.names met
  · rename_i none
    rw [if_neg none]
    exact ext.cut met

/-- The successors of a new node are met on the level below. -/
theorem extends_node {levels depth : Nat} {a : α} {before after : Found α} (deep : depth + levels = bound)
    (lies : Lies next starts depth a) (new : a ∉ before.names)
    (ext : Extends next starts bound { before with nodes := (a,depth) :: before.nodes } after)
    (mets : ∀ b ∈ next a, Met levels after b) : Extends next starts bound before after := by
  obtain ⟨others,nodes,done⟩ := ext.nodes
  refine ⟨⟨others ++ [(a,depth)],by simp [nodes],?_⟩,?_,ext.cut,ext.marked⟩
  · intro node member
    rcases List.mem_append.mp member with member | member
    · exact done node member
    · rw [List.mem_singleton] at member
      subst member
      refine ⟨?_,by show depth ≤ bound; omega,lies⟩
      intro b successor
      have met := mets b successor
      have some : 0 < levels ↔ depth < bound := by omega
      simpa only [Met, some] using met
  · intro distinct
    exact ext.distinct (List.nodup_cons.mpr ⟨new,distinct⟩)

/-! ### The search -/

variable [DecidableEq α]

section
variable (next : α → List α)

/-- A node is met at a depth, with so many levels left, this one included. -/
def visit : Nat → Nat → α → Found α → Found α
  | 0,_,_,found => { found with cut := true }
  | levels+1,depth,a,found =>
    if a ∈ found.names then found
    else (next a).foldl (fun found b => visit levels (depth + 1) b found) { found with nodes := (a,depth) :: found.nodes }

/-- The nodes of a list are met one after another. -/
def visitAll (levels depth : Nat) (nodes : List α) (found : Found α) : Found α :=
  nodes.foldl (fun found b => visit next levels depth b found) found

/-- The search from some nodes at depth one. -/
def search (bound : Nat) (starts : List α) : Found α := visitAll next bound 1 starts {}

theorem visit_known {levels depth : Nat} {a : α} {found : Found α} (known : a ∈ found.names) :
    visit next (levels + 1) depth a found = found := by
  rw [visit, if_pos known]

theorem visit_new {levels depth : Nat} {a : α} {found : Found α} (new : a ∉ found.names) :
    visit next (levels + 1) depth a found =
      visitAll next levels (depth + 1) (next a) { found with nodes := (a,depth) :: found.nodes } := by
  rw [visit, if_neg new, visitAll]

end

theorem visitAll_extends {levels depth : Nat} {nodes : List α} {found : Found α}
    (each : ∀ a ∈ nodes, ∀ found : Found α, Extends next starts bound found (visit next levels depth a found) ∧
      Met levels (visit next levels depth a found) a) :
    Extends next starts bound found (visitAll next levels depth nodes found) ∧
      ∀ a ∈ nodes, Met levels (visitAll next levels depth nodes found) a := by
  induction nodes generalizing found with
  | nil => exact ⟨extends_refl found,nofun⟩
  | cons a rest ih =>
    obtain ⟨first,met⟩ := each a (by simp) found
    have later (b : α) (member : b ∈ rest) := each b (by simp [member])
    obtain ⟨others,mets⟩ := ih later
    refine ⟨first.trans others,?_⟩
    intro b member
    rcases List.mem_cons.mp member with same | later
    · subst same
      exact met.extends others
    · exact mets b later

theorem visit_extends {levels depth : Nat} {a : α} {found : Found α} (deep : depth + levels = bound + 1)
    (lies : Lies next starts depth a) : Extends next starts bound found (visit next levels depth a found) ∧
      Met levels (visit next levels depth a found) a := by
  induction levels generalizing depth a found with
  | zero =>
    refine ⟨⟨⟨[],rfl,nofun⟩,id,fun _ => rfl,fun _ => Or.inr ⟨a,?_⟩⟩,rfl⟩
    have here : depth = bound + 1 := by omega
    exact here ▸ lies
  | succ levels ih =>
    have some : 0 < levels + 1 := Nat.succ_pos levels
    by_cases known : a ∈ found.names
    · rw [visit_known next known, Met, if_pos some]
      exact ⟨extends_refl found,known⟩
    · rw [visit_new next known, Met, if_pos some]
      have each (b : α) (member : b ∈ next a) (later : Found α) :
          Extends next starts bound later (visit next levels (depth + 1) b later) ∧
            Met levels (visit next levels (depth + 1) b later) b :=
        ih (by omega) (.step lies member)
      obtain ⟨ext,mets⟩ := visitAll_extends each
      exact ⟨extends_node (by omega) lies known ext mets,ext.names (List.mem_cons_self ..)⟩

theorem search_extends (next : α → List α) (bound : Nat) (starts : List α) :
    Extends next starts bound {} (search next bound starts) ∧ ∀ a ∈ starts, Met bound (search next bound starts) a :=
  visitAll_extends fun _ member _ => visit_extends (by omega) (.start member)

/-! ### What is found -/

theorem search_distinct : (search next bound starts).names.Nodup :=
  (search_extends next bound starts).1.distinct List.nodup_nil

theorem search_node {node : α × Nat} (member : node ∈ (search next bound starts).nodes) :
    Done next bound (search next bound starts) node ∧ node.2 ≤ bound ∧ Lies next starts node.2 node.1 := by
  obtain ⟨new,nodes,done⟩ := (search_extends next bound starts).1.nodes
  rw [nodes] at member
  exact done node (by simpa using member)

theorem found_lies {a : α} (found : a ∈ (search next bound starts).names) :
    ∃ depth ≤ bound, Lies next starts depth a := by
  obtain ⟨node,member,rfl⟩ := List.mem_map.mp found
  obtain ⟨_,within,lies⟩ := search_node member
  exact ⟨node.2,within,lies⟩

/-- Without the mark, every node is found. -/
theorem uncut_found (uncut : (search next bound starts).cut = false) {depth : Nat} {a : α}
    (lies : Lies next starts depth a) : a ∈ (search next bound starts).names := by
  induction lies with
  | start member =>
    have met := (search_extends next bound starts).2 _ member
    unfold Met at met
    split at met
    · exact met
    · rw [uncut] at met
      cases met
  | step before member ih =>
    obtain ⟨node,known,same⟩ := List.mem_map.mp ih
    have done := (search_node known).1 _ (same ▸ member)
    split at done
    · exact done
    · rw [uncut] at done
      cases done

/-- A node that lies at two depths does not lead beyond the bound from the deeper one. -/
def Uniform (next : α → List α) (starts : List α) (bound : Nat) : Prop :=
  ∀ a upper lower, Lies next starts upper a → Lies next starts lower a → upper < lower → lower ≤ bound →
    ∀ steps b, Leads next a steps b → lower + steps ≤ bound

/-- What lies within the bound is found. -/
theorem uniform_found (uniform : Uniform next starts bound) {depth : Nat} {a : α} (lies : Lies next starts depth a)
    (within : depth ≤ bound) : a ∈ (search next bound starts).names := by
  induction lies with
  | start member =>
    have met := (search_extends next bound starts).2 _ member
    rwa [Met, if_pos (show 0 < bound from within)] at met
  | @step depth a b before member ih =>
    obtain ⟨node,known,same⟩ := List.mem_map.mp (ih (by omega))
    subst same
    obtain ⟨done,shallow,lies⟩ := search_node known
    have found := done b member
    split at found
    · exact found
    · -- The node was met at the bound, and it lies higher up as well.
      have fits := uniform node.1 depth node.2 before lies (by omega) shallow 1 b (.step .here member)
      omega

theorem uniform_cut (uniform : Uniform next starts bound) :
    (search next bound starts).cut = true ↔ ∃ b, Lies next starts (bound + 1) b := by
  constructor
  · intro cut
    exact ((search_extends next bound starts).1.marked cut).resolve_left nofun
  · rintro ⟨b,lies⟩
    generalize deep : bound + 1 = depth at lies
    cases lies with
    | start member =>
      have met := (search_extends next bound starts).2 _ member
      rwa [Met, if_neg (by omega)] at met
    | @step depth a b before member =>
      obtain ⟨node,known,same⟩ := List.mem_map.mp (uniform_found uniform before (by omega))
      subst same
      obtain ⟨done,shallow,lies⟩ := search_node known
      have found := done b member
      split at found
      · have fits := uniform node.1 node.2 depth lies before (by omega) (by omega) 1 b (.step .here member)
        omega
      · exact found

/-! ### Renamed graphs -/

/-- The nodes are renamed one by one, and starts and successors go with them, in any order and as often as may be. -/
structure Renames {β : Type} (next : α → List α) (starts : List α) (next' : β → List β) (starts' : List β) (φ : α → β) :
    Prop where
  started : ∀ b', b' ∈ starts' ↔ ∃ b ∈ starts, φ b = b'
  succeeds : ∀ depth a, Lies next starts depth a → ∀ b', b' ∈ next' (φ a) ↔ ∃ b ∈ next a, φ b = b'
  distinct : ∀ depth a depth' b, Lies next starts depth a → Lies next starts depth' b → φ a = φ b → a = b

section
variable {β : Type} [DecidableEq β] {next' : β → List β} {starts' : List β} {φ : α → β}

omit [DecidableEq α] [DecidableEq β] in
theorem Renames.lies_iff (renames : Renames next starts next' starts' φ) {depth : Nat} {b' : β} :
    Lies next' starts' depth b' ↔ ∃ b, Lies next starts depth b ∧ φ b = b' := by
  constructor
  · intro lies
    induction lies with
    | start member =>
      obtain ⟨b,started,same⟩ := (renames.started _).mp member
      exact ⟨b,.start started,same⟩
    | step before member ih =>
      obtain ⟨a,lies,rfl⟩ := ih
      obtain ⟨b,successor,same⟩ := (renames.succeeds _ a lies _).mp member
      exact ⟨b,.step lies successor,same⟩
  · rintro ⟨b,lies,rfl⟩
    induction lies with
    | start member => exact .start ((renames.started _).mpr ⟨_,member,rfl⟩)
    | step before member ih => exact .step ih ((renames.succeeds _ _ before _).mpr ⟨_,member,rfl⟩)

omit [DecidableEq α] [DecidableEq β] in
theorem Renames.leads (renames : Renames next starts next' starts' φ) {depth steps : Nat} {a : α} {b' : β}
    (lies : Lies next starts depth a) (leads : Leads next' (φ a) steps b') :
    ∃ b, Leads next a steps b ∧ Lies next starts (depth + steps) b ∧ φ b = b' := by
  induction leads with
  | here => exact ⟨a,.here,lies,rfl⟩
  | step before member ih =>
    obtain ⟨b,leads,lies,rfl⟩ := ih
    obtain ⟨c,successor,same⟩ := (renames.succeeds _ b lies _).mp member
    exact ⟨c,.step leads successor,.step lies successor,same⟩

omit [DecidableEq α] [DecidableEq β] in
theorem Renames.uniform (renames : Renames next starts next' starts' φ) (uniform : Uniform next starts bound) :
    Uniform next' starts' bound := by
  intro a' upper lower high low deeper within steps b' leads
  obtain ⟨a,lies,rfl⟩ := renames.lies_iff.mp high
  obtain ⟨c,lies',same⟩ := renames.lies_iff.mp low
  obtain rfl := renames.distinct lower c upper a lies' lies same
  obtain ⟨b,path,_,_⟩ := renames.leads lies leads
  exact uniform c upper lower lies lies' deeper within steps b path

/-- The search finds the same nodes, and leaves the mark alike. -/
theorem Renames.search_perm (renames : Renames next starts next' starts' φ) (uniform : Uniform next starts bound) :
    (search next' bound starts').names.Perm ((search next bound starts).names.map φ) := by
  have distinct : ((search next bound starts).names.map φ).Nodup := by
    refine List.Nodup.map_on (fun a found b found' same => ?_) search_distinct
    obtain ⟨depth,_,lies⟩ := found_lies found
    obtain ⟨depth',_,lies'⟩ := found_lies found'
    exact renames.distinct depth a depth' b lies lies' same
  refine (List.perm_ext_iff_of_nodup search_distinct distinct).mpr fun b' => ?_
  rw [List.mem_map]
  constructor
  · intro found
    obtain ⟨depth,within,lies⟩ := found_lies found
    obtain ⟨b,lies,same⟩ := renames.lies_iff.mp lies
    exact ⟨b,uniform_found uniform lies within,same⟩
  · rintro ⟨b,found,same⟩
    obtain ⟨depth,within,lies⟩ := found_lies found
    exact uniform_found (renames.uniform uniform) (renames.lies_iff.mpr ⟨b,lies,same⟩) within

theorem Renames.search_cut (renames : Renames next starts next' starts' φ) (uniform : Uniform next starts bound) :
    (search next' bound starts').cut = true ↔ (search next bound starts).cut = true := by
  rw [uniform_cut uniform,uniform_cut (renames.uniform uniform)]
  constructor
  · rintro ⟨b',lies⟩
    obtain ⟨b,lies,_⟩ := renames.lies_iff.mp lies
    exact ⟨b,lies⟩
  · rintro ⟨b,lies⟩
    exact ⟨φ b,renames.lies_iff.mpr ⟨b,lies,rfl⟩⟩

end

end DocGuard.Search
