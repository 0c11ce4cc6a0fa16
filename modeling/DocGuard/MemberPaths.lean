import DocGuard.ArchiveSteps

/-!
Where the name of an archive member leads when it is joined to the directory of an
extraction, under the rules for POSIX paths and under those for Windows paths, and
which of the names that lead out of the directory the inspection counts.
-/
namespace DocGuard.MemberPaths
open DocGuard.Archive DocGuard.NameSecurity

/-! ### Locations -/

def dots : Text := ['.','.']

/-- One component of a path, from a directory on; above the root there is only the root. -/
def walk (here : List Text) (part : Text) : List Text :=
  if part = [] ∨ part = ['.'] then here else if part = dots then here.dropLast else here ++ [part]

/-- The components are resolved lexically. -/
def resolve (start parts : List Text) : List Text := parts.foldl walk start

/-- A name joined to a directory, under POSIX rules. -/
def posixLocation (root : List Text) (name : Text) : List Text :=
  resolve (if Text.startsWith name ['/'] then [] else root) (name.splitOn '/')

inductive Drive where
  | letter (c : Char)
  | share (server share : Text)

/-- A directory under Windows. -/
structure Directory where
  drive : Drive
  parts : List Text

/-- The letters that the file system does not distinguish, and the current directory of each drive. -/
structure Windows where
  fold : Char → Char
  apart : fold 'C' ≠ fold 'D'
  current : Char → List Text

def Windows.sameDrive (windows : Windows) : Drive → Drive → Prop
  | .letter c,.letter d => windows.fold c = windows.fold d
  | .share server share,.share server' share' =>
    server.map windows.fold = server'.map windows.fold ∧ share.map windows.fold = share'.map windows.fold
  | _,_ => False

def Windows.Inside (windows : Windows) (root location : Directory) : Prop :=
  windows.sameDrive root.drive location.drive ∧
    root.parts.map (List.map windows.fold) <+: location.parts.map (List.map windows.fold)

open Classical in
/-- A name joined to a directory, under Windows rules: a share, a root, a drive with its root, a drive alone, or none of
    these. A character before a colon is taken for a drive, whatever character it is. -/
noncomputable def Windows.location (windows : Windows) (root : Directory) (name : Text) : Directory :=
  match portable name with
  | '/' :: '/' :: rest =>
    match rest.splitOn '/' with
    | server :: share :: parts => ⟨.share server share,resolve [] parts⟩
    | parts => ⟨.share (parts.headD []) [],[]⟩
  | '/' :: rest => ⟨root.drive,resolve [] (rest.splitOn '/')⟩
  | c :: ':' :: '/' :: rest => ⟨.letter c,resolve [] (rest.splitOn '/')⟩
  | c :: ':' :: rest =>
    if windows.sameDrive root.drive (.letter c) then ⟨root.drive,resolve root.parts (rest.splitOn '/')⟩
    else ⟨.letter c,resolve (windows.current c) (rest.splitOn '/')⟩
  | path => ⟨root.drive,resolve root.parts (path.splitOn '/')⟩

/-- There is a directory out of which the name leads. -/
def Escapes (windows : Windows) (name : Text) : Prop :=
  (∃ root, ¬ root <+: posixLocation root name) ∨ ∃ root, ¬ windows.Inside root (windows.location root name)

/-- Neither a root nor a drive, nor two dots among the components. -/
structure Ordinary (name : Text) : Prop where
  rootless : Text.startsWith (portable name) ['/'] = false
  driveless : ∀ c rest, portable name ≠ c :: ':' :: rest
  inward : dots ∉ (portable name).splitOn '/'

/-- A drive that is no letter with a root behind it, in a name without two dots and without a root at its start. -/
def HidesDrive (name : Text) : Prop :=
  ∃ c rest, portable name = c :: ':' :: rest ∧ c ≠ '/' ∧ ¬ (c.isAlpha ∧ Text.startsWith rest ['/']) ∧
    dots ∉ (portable name).splitOn '/'

/-! ### Names without two dots -/

theorem resolve_inside {parts : List Text} (inward : dots ∉ parts) (start : List Text) : start <+: resolve start parts := by
  induction parts generalizing start with
  | nil => exact List.prefix_rfl
  | cons part rest ih =>
    rw [List.mem_cons, not_or] at inward
    have here : start <+: walk start part := by
      unfold walk
      split
      · exact List.prefix_rfl
      · rw [if_neg (Ne.symm inward.1)]
        exact List.prefix_append _ _
    exact here.trans (ih inward.2 _)

theorem splitOn_cons (c : Char) (rest : Text) : (c :: rest).splitOn '/' =
    if c = '/' then [] :: rest.splitOn '/' else (rest.splitOn '/').modifyHead (List.cons c) := by
  simp [List.splitOn, List.splitOnP_cons_eq_if_modifyHead]

/-- Components without a backslash stay components when backslashes become slashes, the first one and the others. -/
theorem portable_splits (name : Text) :
    (∀ first ∈ ((name.splitOn '/').head?), '\\' ∉ first → first ∈ ((portable name).splitOn '/').head?) ∧
      ∀ part ∈ (name.splitOn '/').tail, '\\' ∉ part → part ∈ ((portable name).splitOn '/').tail := by
  induction name with
  | nil => exact ⟨fun first same _ => same,nofun⟩
  | cons c rest ih =>
    obtain ⟨head,tail⟩ := ih
    have turned : portable (c :: rest) = (if c = '\\' then '/' else c) :: portable rest := rfl
    obtain ⟨first,others,split_⟩ := List.exists_cons_of_ne_nil (List.splitOn_ne_nil '/' rest)
    obtain ⟨first',others',split_'⟩ := List.exists_cons_of_ne_nil (List.splitOn_ne_nil '/' (portable rest))
    rw [split_, split_'] at head tail
    rw [turned, splitOn_cons c, splitOn_cons, split_, split_']
    by_cases slash : c = '/'
    · subst slash
      refine ⟨fun other same _ => same,fun part member plain => ?_⟩
      rcases List.mem_cons.mp member with rfl | later
      · exact List.mem_of_mem_head? (head part rfl plain)
      · exact List.mem_cons_of_mem _ (tail part later plain)
    · rw [if_neg slash]
      by_cases back : c = '\\'
      · subst back
        refine ⟨fun other same plain => ?_,fun part member plain => ?_⟩
        · cases same
          exact absurd List.mem_cons_self plain
        · exact List.mem_cons_of_mem _ (tail part member plain)
      · rw [if_neg back, if_neg slash]
        refine ⟨fun other same plain => ?_,fun part member plain => tail part member plain⟩
        cases same
        rw [List.mem_cons, not_or] at plain
        have same := head first rfl plain.2
        cases same
        rfl

theorem dots_portable {name : Text} (member : dots ∈ name.splitOn '/') : dots ∈ (portable name).splitOn '/' := by
  obtain ⟨head,tail⟩ := portable_splits name
  have plain : '\\' ∉ dots := by decide
  obtain ⟨first,others,split_⟩ := List.exists_cons_of_ne_nil (List.splitOn_ne_nil '/' name)
  rw [split_] at member head tail
  rcases List.mem_cons.mp member with rfl | later
  · exact List.mem_of_mem_head? (head dots rfl plain)
  · exact List.mem_of_mem_tail (tail dots later plain)

/-! ### What is counted -/

variable (lib : Library) (limits : ArchiveAnalysisLimits)

/-- The inspection of an entry with this name counts the category once more, or leaves its count. -/
def Counted (name : Text) (category : Category) : Prop :=
  ∀ depth seen s, (inspectName lib limits name depth seen s).counts category = s.counts category + 1

def Uncounted (name : Text) (category : Category) : Prop :=
  ∀ depth seen s, (inspectName lib limits name depth seen s).counts category = s.counts category

theorem counted_iff {name : Text} {category : Category} {shown : Bool}
    (exhibited : ∀ seen, exhibits lib name seen category = shown) :
    (Counted lib limits name category ↔ shown = true) ∧ (Uncounted lib limits name category ↔ shown = false) := by
  have counts (depth : Nat) (seen : SeenNames) (s : Inspection) :
      (inspectName lib limits name depth seen s).counts category = s.counts category + if shown then 1 else 0 := by
    rw [inspectName_counts, added, exhibited]
  cases shown with
  | true =>
    refine ⟨⟨fun _ => rfl,fun _ => counts⟩,⟨fun all => ?_,fun absent => absurd absent (by decide)⟩⟩
    have same := counts 0 [] {}
    rw [all 0 [] {}] at same
    simp at same
  | false =>
    refine ⟨⟨fun all => ?_,fun present => absurd present (by decide)⟩,⟨fun _ => rfl,fun _ => counts⟩⟩
    have same := counts 0 [] {}
    rw [all 0 [] {}] at same
    simp at same

/-- The name has two dots among its components. -/
theorem traversal_iff (name : Text) :
    (Counted lib limits name .traversal ↔ dots ∈ (portable name).splitOn '/') ∧
      (Uncounted lib limits name .traversal ↔ dots ∉ (portable name).splitOn '/') := by
  have shown (seen : SeenNames) : exhibits lib name seen .traversal = ((portable name).splitOn '/').contains dots := rfl
  obtain ⟨counted,uncounted⟩ := counted_iff lib limits shown
  rw [counted, uncounted, List.contains_iff_mem, ← Bool.not_eq_true, List.contains_iff_mem]
  exact ⟨Iff.rfl,Iff.rfl⟩

theorem windowsRoot_iff (name : Text) :
    windowsRoot name = true ↔ ∃ c rest, portable name = c :: ':' :: '/' :: rest ∧ c.isAlpha := by
  constructor
  · intro rooted
    unfold windowsRoot at rooted
    split at rooted
    · rename_i letter third rest
      simp only [Bool.and_eq_true, Bool.or_eq_true, beq_iff_eq] at rooted
      have plain : letter ≠ '\\' := by
        rintro rfl
        exact absurd rooted.1 (by decide)
      refine ⟨letter,portable rest,?_,rooted.1⟩
      rcases rooted.2 with rfl | rfl <;> simp [portable, plain]
    · cases rooted
  · rintro ⟨c,rest,turned,letter⟩
    match name with
    | [] => simp [portable] at turned
    | [_] => simp [portable] at turned
    | [_,_] => simp [portable] at turned
    | first :: second :: third :: others =>
      simp only [portable, List.map_cons, List.cons.injEq] at turned
      obtain ⟨one,two,three,_⟩ := turned
      have colon : second = ':' := by
        split at two
        · cases two
        · exact two
      have same : first = c := by
        split at one
        · subst one
          exact absurd letter (by decide)
        · exact one
      have separator : third = '\\' ∨ third = '/' := by
        split at three
        · exact .inl ‹_›
        · exact .inr three
      subst colon same
      simpa [windowsRoot, letter] using separator

theorem absolute_iff (name : Text) :
    (Counted lib limits name .absolutePath ↔ Text.startsWith (portable name) ['/'] = true ∨ windowsRoot name = true) ∧
      (Uncounted lib limits name .absolutePath ↔
        ¬ (Text.startsWith (portable name) ['/'] = true ∨ windowsRoot name = true)) := by
  have shown (seen : SeenNames) : exhibits lib name seen .absolutePath =
      (Text.startsWith (portable name) ['/'] || windowsRoot name) := rfl
  obtain ⟨counted,uncounted⟩ := counted_iff lib limits shown
  rw [counted, uncounted, ← Bool.or_eq_true, Bool.not_eq_true]
  exact ⟨Iff.rfl,Iff.rfl⟩

/-! ### Names that lead out -/

theorem startsWith_slash {text : Text} (starts : Text.startsWith text ['/'] = true) : ∃ rest, text = '/' :: rest := by
  cases text with
  | nil => cases starts
  | cons c rest =>
    have same : '/' = c := by simpa [Text.startsWith, List.isPrefixOf] using starts
    exact ⟨rest,by rw [same]⟩

variable (windows : Windows)

/-- Without a root, a drive and two dots a name stays in the directory. -/
theorem ordinary_inside {name : Text} (ordinary : Ordinary name) : ¬ Escapes windows name := by
  obtain ⟨rootless,driveless,inward⟩ := ordinary
  rintro (⟨root,out⟩ | ⟨root,out⟩)
  · have relative : Text.startsWith name ['/'] = false := by
      cases name with
      | nil => rfl
      | cons c rest =>
        by_contra starts
        obtain ⟨_,same⟩ := startsWith_slash (Bool.eq_true_of_not_eq_false starts)
        cases same
        cases rootless
    rw [posixLocation, relative] at out
    exact out (resolve_inside (fun member => inward (dots_portable member)) root)
  · have location : windows.location root name = ⟨root.drive,resolve root.parts ((portable name).splitOn '/')⟩ := by
      unfold Windows.location
      split
      · rename_i path
        rw [path] at rootless
        cases rootless
      · rename_i path
        rw [path] at rootless
        cases rootless
      · rename_i path
        exact absurd path (driveless _ _)
      · rename_i path
        exact absurd path (driveless _ _)
      · rfl
    rw [location] at out
    refine out ⟨?_,(resolve_inside inward root.parts).map _⟩
    cases root.drive with
    | letter c => rfl
    | share server share => exact ⟨rfl,rfl⟩

/-- A hidden drive leads to that drive. -/
theorem hidesDrive_escapes {name : Text} (hidden : HidesDrive name) : Escapes windows name := by
  obtain ⟨c,rest,path,relative,_⟩ := hidden
  have elsewhere : ∃ d, windows.fold d ≠ windows.fold c := by
    by_cases same : windows.fold 'C' = windows.fold c
    · exact ⟨'D',fun equal => windows.apart (same.trans equal.symm)⟩
    · exact ⟨'C',same⟩
  obtain ⟨d,apart⟩ := elsewhere
  refine .inr ⟨⟨.letter d,[]⟩,fun inside => ?_⟩
  have drive : (windows.location ⟨.letter d,[]⟩ name).drive = .letter c := by
    unfold Windows.location
    rw [path]
    split
    · rename_i same
      cases same
    · rename_i same
      cases same
      exact absurd rfl relative
    · rename_i same
      cases same
      rfl
    · rename_i same
      cases same
      rw [if_neg (show ¬ windows.sameDrive (.letter d) (.letter c) from apart)]
    · rename_i other
      exact absurd rfl (other c rest)
  have same := inside.1
  rw [drive] at same
  exact apart same

/-- Exactly if the name hides no drive it is counted as unsafe when it leads out of some directory, and as neither
    when it is ordinary. -/
theorem unsafe_names_counted_iff (name : Text) :
    ((Escapes windows name → Counted lib limits name .traversal ∨ Counted lib limits name .absolutePath) ∧
      (Ordinary name → Uncounted lib limits name .traversal ∧ Uncounted lib limits name .absolutePath)) ↔
    ¬ HidesDrive name := by
  obtain ⟨traversal,straight⟩ := traversal_iff lib limits name
  obtain ⟨absolute,relative⟩ := absolute_iff lib limits name
  constructor
  · rintro ⟨reported,_⟩ hidden
    have escapes := hidesDrive_escapes windows hidden
    obtain ⟨c,rest,path,apart,unrooted,inward⟩ := hidden
    rcases reported escapes with counted | counted
    · exact inward (traversal.mp counted)
    · rcases absolute.mp counted with starts | rooted
      · obtain ⟨_,same⟩ := startsWith_slash starts
        rw [path] at same
        cases same
        exact apart rfl
      · obtain ⟨letter,more,same,alpha⟩ := (windowsRoot_iff name).mp rooted
        rw [path] at same
        cases same
        exact unrooted ⟨alpha,rfl⟩
  · intro shown
    constructor
    · intro escapes
      by_contra none
      rw [not_or, traversal, absolute, not_or] at none
      obtain ⟨inward,rootless,unrooted⟩ := none
      refine ordinary_inside windows ⟨Bool.eq_false_of_not_eq_true rootless,fun c rest path => ?_,inward⟩ escapes
      refine shown ⟨c,rest,path,?_,?_,inward⟩
      · rintro rfl
        rw [path] at rootless
        exact rootless rfl
      · rintro ⟨alpha,starts⟩
        obtain ⟨more,rfl⟩ := startsWith_slash starts
        exact unrooted ((windowsRoot_iff name).mpr ⟨c,more,path,alpha⟩)
    · intro ordinary
      refine ⟨straight.mpr ordinary.inward,relative.mpr ?_⟩
      rintro (starts | rooted)
      · rw [ordinary.rootless] at starts
        cases starts
      · obtain ⟨c,rest,path,_⟩ := (windowsRoot_iff name).mp rooted
        exact ordinary.driveless c _ path

/-- A file system that distinguishes all letters, with every current directory at its root. -/
def plainWindows : Windows := ⟨id,by decide,fun _ => []⟩

/-- `C:evil.txt` leads to the drive and is counted as nothing. -/
theorem drive_uncounted : Escapes plainWindows (lit "C:evil.txt") ∧ ∀ lib limits,
    Uncounted lib limits (lit "C:evil.txt") .traversal ∧ Uncounted lib limits (lit "C:evil.txt") .absolutePath := by
  have hidden : HidesDrive (lit "C:evil.txt") := ⟨'C',lit "evil.txt",rfl,by decide,by decide,by decide⟩
  refine ⟨hidesDrive_escapes plainWindows hidden,fun lib limits => ⟨?_,?_⟩⟩
  · rw [(traversal_iff lib limits _).2]
    decide
  · rw [(absolute_iff lib limits _).2]
    decide

end DocGuard.MemberPaths
