import Mathlib.Data.List.TakeWhile
import Dcfpe.Lib.Named
import Dcfpe.Process.LaunchOption

/-!
# The environment of a child process

`MakeEnvironmentVariable` goes over the inherited variables with three lists, each of which treats a
name that is there in its own way, and writes what comes out as a block of memory.  The three loops
are `Named.place` with names folded to lower case, and the block is read back by the loop of
`CurrentEnvironmentVariable`.
-/

set_option autoImplicit false

namespace Dcfpe.LaunchOption

open Named

variable {lower : UInt16 → UInt16}

/-! ## The three loops -/

theorem stringEqualCaseInsensitive_iff (x y : NativeString) :
    stringEqualCaseInsensitive lower x y = true ↔ x.map lower = y.map lower := by
  rw [stringEqualCaseInsensitive, Bool.and_eq_true, decide_eq_true_iff]
  induction x generalizing y with
  | nil => rcases y with _ | ⟨d, y⟩ <;> simp
  | cons c x ih =>
    rcases y with _ | ⟨d, y⟩
    · simp
    · have := ih y
      simp only [List.zip_cons_cons, List.all_cons, Bool.and_eq_true, List.length_cons,
        Nat.add_right_cancel_iff, List.map_cons, List.cons.injEq, decide_eq_true_iff] at this ⊢
      rw [← this]
      exact ⟨fun h => ⟨h.2.1, h.1, h.2.2⟩, fun h => ⟨h.2.1, h.1, h.2.2⟩⟩

theorem place_eq (change : NativeString → NativeString → NativeString) :
    place lower change = Named.place (List.map lower) change := by
  funext temp iter
  induction temp with
  | nil => rfl
  | cons it temp ih => simp only [place, Named.place, stringEqualCaseInsensitive_iff, ih]

theorem keep_eq : keep lower = Named.place (List.map lower) fun _ old => old := place_eq _

theorem merge_eq : merge lower = Named.place (List.map lower) fun new old => new ++ old :=
  place_eq _

theorem replace_eq : replace lower = Named.place (List.map lower) fun new _ => new := place_eq _

/-! ## The block -/

/-- A name and a value that can stand in a block. -/
def EnvName (name : NativeString) : Prop := name ≠ [] ∧ 61 ∉ name ∧ 0 ∉ name

def EnvValue (value : NativeString) : Prop := 0 ∉ value

instance (name : NativeString) : Decidable (EnvName name) := inferInstanceAs (Decidable (_ ∧ _))

instance (value : NativeString) : Decidable (EnvValue value) :=
  inferInstanceAs (Decidable (0 ∉ value))

/-- An entry as it stands in a block. -/
def entryText (iter : NativeString × NativeString) : NativeString := iter.1 ++ 61 :: iter.2

theorem entryText_noNul {iter : NativeString × NativeString}
    (h : EnvName iter.1 ∧ EnvValue iter.2) : 0 ∉ entryText iter := by
  simp only [entryText, List.mem_append, List.mem_cons, not_or]
  exact ⟨h.1.2.2, by decide, h.2⟩

theorem splitEntry_entryText {iter : NativeString × NativeString} (h : EnvName iter.1) :
    splitEntry (entryText iter) = some iter := by
  have hne : ∀ c ∈ iter.1, decide (c ≠ 61) = true := fun c hc =>
    decide_eq_true fun h61 => h.2.1 (h61 ▸ hc)
  have htake : (entryText iter).takeWhile (· ≠ 61) = iter.1 := by
    rw [entryText, List.takeWhile_append_of_pos hne, List.takeWhile_cons_of_neg (by simp),
      List.append_nil]
  rw [splitEntry, htake, if_pos (by simp [entryText])]
  simp [entryText, List.drop_append, List.drop_eq_nil_of_le]

theorem stringsFrom_append {s : NativeString} (hs : 0 ∉ s) (cur rest : NativeString)
    (hne : cur ++ s ≠ []) :
    stringsFrom cur (s ++ 0 :: rest) = (cur ++ s) :: stringsFrom [] rest := by
  induction s generalizing cur with
  | nil =>
    rw [List.append_nil] at hne
    rw [List.nil_append, stringsFrom, if_pos rfl, if_neg hne, List.append_nil]
  | cons c s ih =>
    rw [List.mem_cons, not_or] at hs
    rw [List.cons_append, stringsFrom, if_neg (Ne.symm hs.1), ih hs.2 _ (by simp),
      List.append_assoc, List.singleton_append]

theorem foldl_block (temp : EnvVarList) {ret : NativeString} (hret : ret ≠ []) :
    temp.foldl (fun ret iter =>
      (if ret = [] then ret else ret ++ [0]) ++ iter.1 ++ [61] ++ iter.2) ret =
      ret ++ temp.flatMap fun iter => 0 :: entryText iter := by
  induction temp generalizing ret with
  | nil => simp
  | cons iter temp ih =>
    rw [List.foldl_cons, if_neg hret, ih (by simp)]
    simp [entryText]

theorem environmentBlock_cons (iter : NativeString × NativeString) (temp : EnvVarList) :
    environmentBlock (iter :: temp) =
      entryText iter ++ (temp.flatMap fun iter => 0 :: entryText iter) ++ [0, 0] := by
  rw [environmentBlock, List.foldl_cons, if_pos rfl, foldl_block temp (by simp)]
  simp [entryText]

theorem stringsFrom_entries {temp : EnvVarList}
    (h : ∀ iter ∈ temp, EnvName iter.1 ∧ EnvValue iter.2) {s : NativeString} (hs : 0 ∉ s)
    (hne : s ≠ []) :
    stringsFrom [] (s ++ (temp.flatMap fun iter => 0 :: entryText iter) ++ [0, 0]) =
      s :: temp.map entryText := by
  induction temp generalizing s with
  | nil =>
    rw [List.flatMap_nil, List.append_nil, stringsFrom_append hs [] [0] (by simpa using hne)]
    rfl
  | cons iter temp ih =>
    have htext := entryText_noNul (h iter List.mem_cons_self)
    rw [List.flatMap_cons, List.cons_append, List.append_assoc, List.cons_append,
      stringsFrom_append hs [] _ (by simpa using hne),
      ih (fun it hit => h it (List.mem_cons_of_mem iter hit)) htext (by simp [entryText])]
    rfl

/-- The block is read back as the list it was made of. -/
theorem currentEnvironmentVariable_environmentBlock {temp : EnvVarList}
    (h : ∀ iter ∈ temp, EnvName iter.1 ∧ EnvValue iter.2) :
    currentEnvironmentVariable (some (environmentBlock temp)) = temp := by
  rcases temp with _ | ⟨iter, temp⟩
  · rfl
  · have htext := entryText_noNul (h iter List.mem_cons_self)
    have hrest := fun it hit => h it (List.mem_cons_of_mem iter hit)
    have hsplit : ∀ l : EnvVarList, (∀ it ∈ l, EnvName it.1 ∧ EnvValue it.2) →
        (l.map entryText).filterMap splitEntry = l := by
      intro l hl
      rw [List.filterMap_map]
      conv_rhs => rw [← List.filterMap_some (l := l)]
      exact List.filterMap_congr fun it hit => splitEntry_entryText (hl it hit).1
    rw [environmentBlock_cons, currentEnvironmentVariable,
      stringsFrom_entries hrest htext (by simp [entryText]), ← List.map_cons, hsplit _ h]

/-! ## What is inherited -/

theorem noNul_stringsFrom {cur s : NativeString} (hcur : 0 ∉ cur) :
    ∀ i ∈ stringsFrom cur s, 0 ∉ i := by
  induction s generalizing cur with
  | nil => simp [stringsFrom]
  | cons c s ih =>
    rw [stringsFrom]
    split
    · split
      · simp
      · rw [List.forall_mem_cons]
        exact ⟨hcur, ih (by simp)⟩
    · next hc => exact ih (by simpa [hcur] using Ne.symm hc)

theorem splitEntry_spec {i : NativeString} {iter : NativeString × NativeString} (hi : 0 ∉ i)
    (h : splitEntry i = some iter) : 61 ∉ iter.1 ∧ 0 ∉ iter.1 ∧ 0 ∉ iter.2 := by
  rw [splitEntry] at h
  split at h
  · rw [Option.some_inj] at h
    subst h
    have htake : i.take (i.takeWhile (· ≠ 61)).length = i.takeWhile (· ≠ 61) :=
      List.prefix_iff_eq_take.1 (List.takeWhile_prefix _) |>.symm
    refine ⟨?_, fun h0 => hi (List.mem_of_mem_take h0), fun h0 => hi (List.mem_of_mem_drop h0)⟩
    intro h61
    rw [htake] at h61
    simpa using List.mem_takeWhile_imp h61
  · cases h

theorem inherited_spec (v : Option (List UInt16)) (option : LaunchOption) :
    ∀ iter ∈ option.inherited v, EnvName iter.1 ∧ EnvValue iter.2 := by
  intro iter hiter
  rw [inherited] at hiter
  split at hiter
  · obtain ⟨hiter, hne⟩ := List.mem_filter.1 hiter
    rcases v with _ | v
    · simp [currentEnvironmentVariable] at hiter
    · obtain ⟨i, hi, hsplit⟩ := List.mem_filterMap.1 hiter
      have hspec := splitEntry_spec (noNul_stringsFrom (by simp) i hi) hsplit
      exact ⟨⟨by simpa using hne, hspec.1, hspec.2.1⟩, hspec.2.2⟩
  · cases hiter

/-! ## What the child gets -/

/-- The names and values of the three lists can stand in a block. -/
def ListsNamed (option : LaunchOption) : Prop :=
  ∀ iter ∈ option.envVarKeep ++ option.envVarMerge ++ option.envVarReplace,
    EnvName iter.1 ∧ EnvValue iter.2

instance (option : LaunchOption) : Decidable option.ListsNamed :=
  inferInstanceAs (Decidable (∀ iter ∈ _, _))

/-- The value of a variable after the three phases, when `old` is what is inherited: it is kept when
it is there, the values to be merged are put in front one after the other, and the last one that is
to replace it counts. -/
def resolved (lower : UInt16 → UInt16) (option : LaunchOption) (old : Option NativeString)
    (name : NativeString) : Option NativeString :=
  let kept := old.or (values (List.map lower) option.envVarKeep name).head?
  let merges := values (List.map lower) option.envVarMerge name
  let merged := if merges = [] then kept else some (merges.reverse.flatten ++ kept.getD [])
  ((values (List.map lower) option.envVarReplace name).getLast?).or merged

theorem environment_eq (lower : UInt16 → UInt16) (v : Option (List UInt16))
    (option : LaunchOption) :
    option.environment lower v =
      option.envVarReplace.foldl (Named.place (List.map lower) fun new _ => new)
        (option.envVarMerge.foldl (Named.place (List.map lower) fun new old => new ++ old)
          (option.envVarKeep.foldl (Named.place (List.map lower) fun _ old => old)
            (option.inherited v))) := by
  rw [environment, keep_eq, merge_eq, replace_eq]

theorem environment_named (lower : UInt16 → UInt16) (v : Option (List UInt16))
    {option : LaunchOption} (hlists : option.ListsNamed) :
    ∀ iter ∈ option.environment lower v, EnvName iter.1 ∧ EnvValue iter.2 := by
  simp only [ListsNamed, List.mem_append] at hlists
  rw [environment_eq]
  refine forall_foldl_place (fun _ _ h _ => h) (forall_foldl_place (fun _ _ hnew hold => ?_)
    (forall_foldl_place (fun _ _ _ h => h) (inherited_spec v option)
      fun iter h => hlists iter (Or.inl (Or.inl h)))
    fun iter h => hlists iter (Or.inl (Or.inr h))) fun iter h => hlists iter (Or.inr h)
  exact fun h => (List.mem_append.1 h).elim hnew hold

/-- The block the child gets is read back as the list it was made of, whose names are distinct up to
case.  Each variable has the value the three lists give it; the inherited ones keep their places,
and what no merge or replacement names is as it was. -/
theorem makeEnvironmentVariable_spec (lower : UInt16 → UInt16) (v : Option (List UInt16))
    (option : LaunchOption) (hlists : option.ListsNamed)
    (hdistinct : (keys (List.map lower) (option.inherited v)).Nodup)
    (hany : option.inheritEnvVar = true →
      option.envVarKeep ++ option.envVarMerge ++ option.envVarReplace ≠ []) :
    let temp := option.environment lower v
    currentEnvironmentVariable (some (option.makeEnvironmentVariable lower v)) = temp ∧
    (keys (List.map lower) temp).Nodup ∧
    (∀ name, get (List.map lower) temp name =
      option.resolved lower (get (List.map lower) (option.inherited v) name) name) ∧
    (option.inherited v).map Prod.fst <+: temp.map Prod.fst ∧
    ∀ (i : Nat) (iter : NativeString × NativeString), (option.inherited v)[i]? = some iter →
      values (List.map lower) option.envVarMerge iter.1 = [] →
      values (List.map lower) option.envVarReplace iter.1 = [] → temp[i]? = some iter := by
  have hblock : option.makeEnvironmentVariable lower v =
      environmentBlock (option.environment lower v) := by
    rw [makeEnvironmentVariable, if_neg]
    simp only [Bool.and_eq_true, List.isEmpty_iff]
    rintro ⟨h, hreplace⟩
    simpa [h.1.2, h.2, hreplace] using hany h.1.1
  refine ⟨?_, ?_, fun name => ?_, ?_, fun i iter hiter hmerge hreplace => ?_⟩
  · rw [hblock]
    exact currentEnvironmentVariable_environmentBlock (environment_named lower v hlists)
  · rw [environment_eq]
    exact nodup_foldl_place (nodup_foldl_place (nodup_foldl_place hdistinct))
  · rw [environment_eq, get_foldl_replace, get_foldl_merge, get_foldl_keep]
    rfl
  · rw [environment_eq]
    exact (names_prefix_foldl _ _).trans
      ((names_prefix_foldl _ _).trans (names_prefix_foldl _ _))
  · rw [environment_eq]
    have hkeep : (option.envVarKeep.foldl (Named.place (List.map lower) fun _ old => old)
        (option.inherited v))[i]? = some iter := getElem?_foldl_place hiter fun _ _ _ => rfl
    refine getElem?_foldl_place (getElem?_foldl_place hkeep ?_) ?_
    · exact fun new hnew hname => absurd hname ((values_eq_nil_iff _ _).1 hmerge new hnew)
    · exact fun new hnew hname => absurd hname ((values_eq_nil_iff _ _).1 hreplace new hnew)

def asciiLower (c : UInt16) : UInt16 := if 65 ≤ c && c ≤ 90 then c + 32 else c

/-- `A=1` is inherited, `2` is put in front of it, and `B` is new. -/
def withLists : LaunchOption where
  imagePath := [99]
  envVarKeep := [([97], [57]), ([66], [51])]
  envVarMerge := [([97], [50])]

theorem makeEnvironmentVariable_spec_withLists :
    currentEnvironmentVariable
        (some (withLists.makeEnvironmentVariable asciiLower (some [65, 61, 49, 0, 0]))) =
      [([65], [50, 49]), ([66], [51])] :=
  (makeEnvironmentVariable_spec asciiLower (some [65, 61, 49, 0, 0]) withLists (by decide)
    (by decide) (by decide)).1.trans (by decide)

end Dcfpe.LaunchOption
