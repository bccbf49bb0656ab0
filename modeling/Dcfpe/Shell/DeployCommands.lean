import Dcfpe.Shell.ScriptEngine

/-!
# The lines of a deploy

Before the commands of the package, `compile` puts a line that makes the target directory and one
for each resource file.  It writes the paths as they are, and the loops of
`executeCommandRemotely` split them.  `split_resourceLines_iff` says for which paths the words
come back: those a line can spell without quotes.
-/

set_option autoImplicit false

namespace Dcfpe.Rs

namespace DeployScriptCompiler

section Lines

variable (paths : Paths) (resourcePath : Text) (files : List Text) (targetDir : Text)

/-- The words that the lines of a deploy are to be split into. -/
def resourceWords : List (List Text) :=
  (if targetDir ≠ [] then [["mkdir".toList, targetDir]] else []) ++
    files.map fun file =>
      ["fst".toList, srcPath paths resourcePath file, destPath targetDir file]

/-- The paths in them. -/
def resourcePaths : List Text :=
  (if targetDir ≠ [] then [targetDir] else []) ++
    files.flatMap fun file => [srcPath paths resourcePath file, destPath targetDir file]

theorem mkdirLine_eq_join : mkdirLine targetDir = join ["mkdir".toList, targetDir] := rfl

theorem fstLine_eq_join (srcPath destPath : Text) :
    fstLine srcPath destPath = join ["fst".toList, srcPath, destPath] := by
  calc fstLine srcPath destPath
      = "fst ".toList ++ srcPath ++ (" ".toList ++ destPath) := List.append_assoc _ _ _
    _ = "fst ".toList ++ (srcPath ++ (" ".toList ++ destPath)) := List.append_assoc _ _ _

theorem split_mkdirLine_iff :
    split (mkdirLine targetDir) = ["mkdir".toList, targetDir] ↔ Plain targetDir := by
  have hmkdir : Plain "mkdir".toList := by decide
  rw [mkdirLine_eq_join, split_join_iff]
  simp only [List.forall_mem_cons, List.not_mem_nil, false_implies, implies_true, and_true, hmkdir,
    true_and]

theorem split_fstLine_iff (srcPath destPath : Text) :
    split (fstLine srcPath destPath) = ["fst".toList, srcPath, destPath] ↔
      Plain srcPath ∧ Plain destPath := by
  have hfst : Plain "fst".toList := by decide
  rw [fstLine_eq_join, split_join_iff]
  simp only [List.forall_mem_cons, List.not_mem_nil, false_implies, implies_true, and_true, hfst,
    true_and]

/-- **What deploy commands mean.**  Every line that `deploy` makes for the resources of a package is
split into the words it is made for exactly if each of its paths is plain: there is no space in it,
it does not begin with a double quote, and it is not empty. -/
theorem split_resourceLines_iff :
    (resourceLines paths resourcePath files targetDir).map split =
        resourceWords paths resourcePath files targetDir ↔
      ∀ path ∈ resourcePaths paths resourcePath files targetDir, Plain path := by
  have hfiles : (files.map fun file =>
        split (fstLine (srcPath paths resourcePath file) (destPath targetDir file))) =
      (files.map fun file =>
        ["fst".toList, srcPath paths resourcePath file, destPath targetDir file]) ↔
      ∀ file ∈ files, Plain (srcPath paths resourcePath file) ∧
        Plain (destPath targetDir file) := by
    rw [List.map_inj_left]
    exact forall₂_congr fun file _ => split_fstLine_iff _ _
  have hpaths : (∀ path ∈ files.flatMap fun file =>
        [srcPath paths resourcePath file, destPath targetDir file], Plain path) ↔
      ∀ file ∈ files, Plain (srcPath paths resourcePath file) ∧
        Plain (destPath targetDir file) := by
    simp only [List.mem_flatMap, List.mem_cons, List.not_mem_nil, or_false]
    constructor
    · intro h file hfile
      exact ⟨h _ ⟨file, hfile, .inl rfl⟩, h _ ⟨file, hfile, .inr rfl⟩⟩
    · rintro h path ⟨file, hfile, rfl | rfl⟩
      · exact (h file hfile).1
      · exact (h file hfile).2
  rw [resourceLines, resourceWords, resourcePaths, List.map_append, List.map_map]
  split
  · rw [List.map_singleton, List.singleton_append, List.singleton_append, List.cons_eq_cons,
      split_mkdirLine_iff, List.singleton_append, List.forall_mem_cons, hpaths, ← hfiles]
    rfl
  · rw [List.map_nil, List.nil_append, List.nil_append, List.nil_append, hpaths, ← hfiles]
    rfl

end Lines

/-- A directory with a space in its name becomes two. -/
theorem space_in_target_dir :
    ¬ ∀ (paths : Paths) (resourcePath : Text) (files : List Text) (targetDir : Text),
      (resourceLines paths resourcePath files targetDir).map split =
        resourceWords paths resourcePath files targetDir := by
  intro h
  exact absurd (h {} [] [] "my app".toList) (by decide)

end DeployScriptCompiler

end Dcfpe.Rs
