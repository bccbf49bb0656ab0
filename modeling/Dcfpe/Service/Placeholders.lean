import Dcfpe.Lib.Substitution
import Dcfpe.Service.Compiler
import Std.Data.TreeMap

/-!
# Placeholders

The strings of a compiler configuration have placeholders: `$(NAME)` for each of its variables, and
some for the files of a job.  `FixString` replaces them one after the other, in the order of the
map, in the image paths and the arguments.  An argument that is `$(SOURCE_FILES)` or
`$(EXTRA_COMPILE_ARGS)` gives way to the files or the flags as they are, and the lists of
environment variables go to the process as they are.

The functions are those of `compiler_impl.cc` and `dpe_service.cc`, here with all fields of a
configuration that they read.  A string is what both of its encodings stand for, and the methods of
`FilePath` are parameters.
-/

set_option autoImplicit false

namespace Dcfpe.BasicCompiler

open Std Substitution

structure LanguageDetail where
  language : String
  compileBinary : String := ""
  compileArgs : List String := []
  defaultOutputFile : String := ""
  runningBinary : String := ""
  runningArgs : List String := []
  deriving DecidableEq, Repr

structure CompilerConfiguration where
  /-- `variables_`. -/
  variableMap : TreeMap String String := ∅
  envVarKeep : List (String × String) := []
  envVarMerge : List (String × String) := []
  envVarReplace : List (String × String) := []
  languageDetail : List LanguageDetail := []

structure CompileJob where
  language : String := ""
  currentDirectory : String := ""
  sourceFiles : List String := []
  outputFile : String := ""
  cflags : String := ""
  compilerOutput : String := ""
  /-- `compile_process_` is set. -/
  compileProcess : Bool := false
  imagePath : String := ""
  arguments : List String := []
  deriving DecidableEq, Repr

/-- What `StartCompile` sets in the option of its process. -/
structure ProcessOption where
  imagePath : String
  inheritEnvVar : Bool
  envVarKeep : List (String × String)
  envVarMerge : List (String × String)
  envVarReplace : List (String × String)
  currentDirectory : String
  argumentList : List String := []
  argumentListR : List String := []
  redirectStdInout : Bool := true
  treatErrAsOut : Bool := true
  createSubProcess : Bool := true
  allowSubProcessBreakawayJob : Bool := true
  deriving DecidableEq, Repr

/-- The methods of a `FilePath`. -/
structure FilePathMethods where
  extension : String → String
  removeExtension : String → String
  baseName : String → String
  dirName : String → String

namespace CompilerConfiguration

def accept (language : String) (config : CompilerConfiguration) : Bool :=
  config.languageDetail.any fun it => stringEqualCaseInsensitive it.language language

def getLanguageDetail (language : String) (config : CompilerConfiguration) : LanguageDetail :=
  (config.languageDetail.find? fun it => stringEqualCaseInsensitive it.language language).getD
    { language := "" }

end CompilerConfiguration

/-- `base::ReplaceSubstringsAfterOffset(&ret, 0, find_this, replace_with)`. -/
def replaceSubstrings (ret findThis replaceWith : String) : String :=
  String.ofList (expand [(findThis.toList, replaceWith.toList)] ret.toList)

def fixString (s : String) (kv : TreeMap String String) : String :=
  kv.toList.foldl (fun ret iter => replaceSubstrings ret iter.1 iter.2) s

/-- The constructor of a `FilePath`, which cuts a string at its first NUL. -/
def filePath (s : String) : String := String.ofList (s.toList.takeWhile (· ≠ Char.ofNat 0))

section Functions

variable (fp : FilePathMethods)

/-- What the three functions add for the first source file. -/
def sourceVariables (file : String) (kv : TreeMap String String) : TreeMap String String :=
  ((((kv.insert "$(SOURCE_FILE_PATH)" file).insert
    "$(SOURCE_FILE_PATH_NO_EXT)" (fp.removeExtension file)).insert
    "$(SOURCE_FILE_BASENAME)" (fp.baseName file)).insert
    "$(SOURCE_FILE_BASENAME_NO_EXT)" (fp.removeExtension (fp.baseName file))).insert
    "$(SOURCE_FILE_DIRNAME)" (fp.dirName file)

/-- The `kv` of `StartCompile` and of `GenerateCmdline`. -/
def jobVariables (context : CompilerConfiguration) (file outputFile : String) :
    TreeMap String String :=
  sourceVariables fp file (context.variableMap.insert "$(OUTPUT_FILE)" outputFile)

def preProcessJob (context : CompilerConfiguration) (job : CompileJob) : Bool × CompileJob :=
  if job.sourceFiles = [] then (false, job)
  else
    let job := { job with language := languageOf fp.extension job.language job.sourceFiles }
    if job.language = "" then (false, job)
    else if !context.accept job.language then (false, job)
    else if job.outputFile = "" then
      let languageDetail := context.getLanguageDetail job.language
      if languageDetail.defaultOutputFile ≠ "" then
        let kv := sourceVariables fp (job.sourceFiles.headD "") context.variableMap
        (true, { job with outputFile := filePath (fixString languageDetail.defaultOutputFile kv) })
      else (true, job)
    else (true, job)

/-- The body of the loop of `StartCompile` over `compile_args_`. -/
def addCompileArg (job : CompileJob) (kv : TreeMap String String) (po : ProcessOption)
    (it : String) : ProcessOption :=
  if it = "$(SOURCE_FILES)" then { po with argumentList := po.argumentList ++ job.sourceFiles }
  else if it = "$(EXTRA_COMPILE_ARGS)" then
    if job.cflags ≠ "" then { po with argumentListR := po.argumentListR ++ [job.cflags] } else po
  else { po with argumentList := po.argumentList ++ [fixString it kv] }

/-- `StartCompile`, with the option that its process is started with; `busy` says that there is a
`curr_job_`, and `started` whether the process starts. -/
def startCompile (busy started : Bool) (context : CompilerConfiguration) (job : CompileJob) :
    Bool × CompileJob × Option ProcessOption :=
  if busy then (false, job, none)
  else
    let (done, job) := preProcessJob fp context job
    if !done then (false, job, none)
    else
      let languageDetail := context.getLanguageDetail job.language
      if languageDetail.compileBinary = "" then (false, job, none)
      else
        let kv := jobVariables fp context (job.sourceFiles.headD "") job.outputFile
        let po : ProcessOption :=
          { imagePath := filePath (fixString languageDetail.compileBinary kv)
            inheritEnvVar := true
            envVarKeep := context.envVarKeep
            envVarMerge := context.envVarMerge
            envVarReplace := context.envVarReplace
            currentDirectory := job.currentDirectory }
        let po := languageDetail.compileArgs.foldl (addCompileArg job kv) po
        let job := { job with compilerOutput := "" }
        (started, { job with compileProcess := started || job.compileProcess }, some po)

end Functions

/-! ## What should be left of the placeholders -/

/-- The placeholders of a job: what `kv` has for its files, and the two that are arguments. -/
def builtinPlaceholders : List String :=
  ["$(OUTPUT_FILE)", "$(SOURCE_FILE_PATH)", "$(SOURCE_FILE_PATH_NO_EXT)", "$(SOURCE_FILE_BASENAME)",
    "$(SOURCE_FILE_BASENAME_NO_EXT)", "$(SOURCE_FILE_DIRNAME)", "$(SOURCE_FILES)",
    "$(EXTRA_COMPILE_ARGS)"]

def placeholders (context : CompilerConfiguration) : List (List Char) :=
  (context.variableMap.keys ++ builtinPlaceholders).map String.toList

/-- No placeholder occurs in the string. -/
def Expanded (context : CompilerConfiguration) (s : String) : Prop :=
  Free (placeholders context) s.toList

instance (context : CompilerConfiguration) (s : String) : Decidable (Expanded context s) :=
  inferInstanceAs (Decidable (Free (placeholders context) s.toList))

/-- The values of the environment variables. -/
def CompilerConfiguration.envValues (context : CompilerConfiguration) : List String :=
  (context.envVarKeep ++ context.envVarMerge ++ context.envVarReplace).map Prod.snd

/-- The image path, the arguments and the values of the environment variables of a process. -/
def ProcessOption.texts (po : ProcessOption) : List String :=
  po.imagePath :: (po.argumentList ++ po.argumentListR ++
    (po.envVarKeep ++ po.envVarMerge ++ po.envVarReplace).map Prod.snd)

def entries (kv : TreeMap String String) : List (List Char × List Char) :=
  kv.toList.map fun iter => (iter.1.toList, iter.2.toList)

/-- The text of a string with all its placeholders replaced at once. -/
def meaning (kv : TreeMap String String) (s : String) : List Char := expand (entries kv) s.toList

section Meaning

variable (fp : FilePathMethods) (context : CompilerConfiguration) (job : CompileJob)

def jobLanguage : String := languageOf fp.extension job.language job.sourceFiles

/-- The output file that a job has, or that its language stands for. -/
def outputFileOf : String :=
  let default := (context.getLanguageDetail (jobLanguage fp job)).defaultOutputFile
  if job.outputFile = "" ∧ default ≠ "" then
    let kv := sourceVariables fp (job.sourceFiles.headD "") context.variableMap
    filePath (String.ofList (meaning kv default))
  else job.outputFile

/-- The arguments that are not expanded, but stand for the files or the flags of the job. -/
def isJobArg (it : String) : Bool := it = "$(SOURCE_FILES)" || it = "$(EXTRA_COMPILE_ARGS)"

def jobArg (it : String) : List String :=
  if it = "$(SOURCE_FILES)" then job.sourceFiles
  else if it = "$(EXTRA_COMPILE_ARGS)" ∧ job.cflags ≠ "" then [job.cflags] else []

/-- The strings of the configuration that are expanded for the job. -/
def expandedStrings : List String :=
  let detail := context.getLanguageDetail (jobLanguage fp job)
  detail.compileBinary :: detail.compileArgs.filter (fun it => !isJobArg it) ++
    detail.runningBinary :: detail.runningArgs

/-- In the strings that are expanded inserted text does not disturb the placeholders: those that
occur do not overlap, and on the way no other comes up.  Of the file that a job without an output
file is given it matters only where it is put in. -/
structure Plain : Prop where
  outputFile : (∃ s ∈ expandedStrings fp context job, "$(OUTPUT_FILE)".toList <:+: s.toList) →
    job.outputFile = "" →
    let kv := sourceVariables fp (job.sourceFiles.headD "") context.variableMap
    let default := (context.getLanguageDetail (jobLanguage fp job)).defaultOutputFile
    default ≠ "" → Undisturbed ((entries kv).map Prod.fst) (entries kv) default.toList
  texts : ∀ s ∈ expandedStrings fp context job, Undisturbed (placeholders context)
    (entries (jobVariables fp context (job.sourceFiles.headD "") (outputFileOf fp context job)))
    s.toList

end Meaning

/-! ## The variables of a configuration -/

section Expansion

variable {fp : FilePathMethods} {context : CompilerConfiguration} {job job' : CompileJob}
  {kv : TreeMap String String}

/-- All keys of the map are placeholders of the configuration or of the job. -/
def Within (context : CompilerConfiguration) (kv : TreeMap String String) : Prop :=
  ∀ k ∈ kv.keys, k ∈ context.variableMap.keys ++ builtinPlaceholders

theorem Within.insert (h : Within context kv) {k : String} (hk : k ∈ builtinPlaceholders)
    (v : String) : Within context (kv.insert k v) := by
  intro k' hk'
  rw [TreeMap.mem_keys, TreeMap.mem_insert, Std.compare_eq_iff_eq] at hk'
  rcases hk' with rfl | hk'
  · exact List.mem_append_right _ hk
  · exact h k' (TreeMap.mem_keys.2 hk')

theorem Expanded.filePath {s : String} (h : Expanded context s) :
    Expanded context (filePath s) := by
  rw [Expanded, BasicCompiler.filePath, String.toList_ofList]
  exact h.of_infix (List.takeWhile_prefix _).isInfix

end Expansion

/-! ## The job -/

section Job

variable {fp : FilePathMethods} {context : CompilerConfiguration} {job job' : CompileJob}

/-- What `PreProcessJob` makes of a job that it takes. -/
structure PreProcessed (fp : FilePathMethods) (context : CompilerConfiguration)
    (job job' : CompileJob) : Prop where
  sourceFiles_ne : job.sourceFiles ≠ []
  language : job'.language = jobLanguage fp job
  language_ne : jobLanguage fp job ≠ ""
  accept : context.accept (jobLanguage fp job) = true
  sourceFiles : job'.sourceFiles = job.sourceFiles
  cflags : job'.cflags = job.cflags
  outputFile : job'.outputFile =
    let default := (context.getLanguageDetail (jobLanguage fp job)).defaultOutputFile
    if job.outputFile = "" ∧ default ≠ "" then
      filePath (fixString default
        (sourceVariables fp (job.sourceFiles.headD "") context.variableMap))
    else job.outputFile

theorem preProcessJob_true (h : preProcessJob fp context job = (true, job')) :
    PreProcessed fp context job job' := by
  rw [preProcessJob] at h
  split at h
  · cases h
  · next hfiles =>
    dsimp only at h
    split at h
    · cases h
    · next hlanguage =>
      split at h
      · cases h
      · next haccept =>
        have haccept : context.accept (jobLanguage fp job) = true := by
          simpa [jobLanguage] using haccept
        split at h
        · next hout =>
          split at h
          · next hdefault =>
            obtain rfl := (Prod.mk.inj h).2
            exact ⟨hfiles, rfl, hlanguage, haccept, rfl, rfl, (if_pos ⟨hout, hdefault⟩).symm⟩
          · next hdefault =>
            obtain rfl := (Prod.mk.inj h).2
            exact ⟨hfiles, rfl, hlanguage, haccept, rfl, rfl,
              (if_neg fun hboth => hdefault hboth.2).symm⟩
        · next hout =>
          obtain rfl := (Prod.mk.inj h).2
          exact ⟨hfiles, rfl, hlanguage, haccept, rfl, rfl,
            (if_neg fun hboth => hout hboth.1).symm⟩

/-- What `StartCompile` hands over to a process that starts. -/
structure Started (fp : FilePathMethods) (context : CompilerConfiguration) (job job' : CompileJob)
    (po : ProcessOption) : Prop where
  preProcessed : PreProcessed fp context job job'
  imagePath : po.imagePath = filePath (fixString
    (context.getLanguageDetail (jobLanguage fp job)).compileBinary
    (jobVariables fp context (job.sourceFiles.headD "") job'.outputFile))
  arguments : ∀ s, s ∈ po.argumentList ++ po.argumentListR ↔
    (∃ it ∈ (context.getLanguageDetail (jobLanguage fp job)).compileArgs, !isJobArg it ∧
      s = fixString it (jobVariables fp context (job.sourceFiles.headD "") job'.outputFile)) ∨
    s ∈ (context.getLanguageDetail (jobLanguage fp job)).compileArgs.flatMap (jobArg job)
  envValues : (po.envVarKeep ++ po.envVarMerge ++ po.envVarReplace).map Prod.snd =
    context.envValues

theorem mem_addCompileArg (kv : TreeMap String String) (po : ProcessOption) (it s : String) :
    s ∈ (addCompileArg job kv po it).argumentList ++ (addCompileArg job kv po it).argumentListR ↔
      s ∈ po.argumentList ++ po.argumentListR ∨ (!isJobArg it ∧ s = fixString it kv) ∨
        s ∈ jobArg job it := by
  by_cases hfiles : it = "$(SOURCE_FILES)"
  · simp only [addCompileArg, isJobArg, jobArg, hfiles, if_true, List.mem_append]
    simp
    tauto
  · by_cases hflags : it = "$(EXTRA_COMPILE_ARGS)"
    · by_cases hnone : job.cflags = ""
      · simp [addCompileArg, isJobArg, jobArg, hflags, hnone]
      · simp [addCompileArg, isJobArg, jobArg, hflags, hnone, or_assoc]
    · simp only [addCompileArg, isJobArg, jobArg, hfiles, hflags, if_false, List.mem_append]
      simp
      tauto

/-- The loop over `compile_args_`. -/
theorem mem_addCompileArgs (kv : TreeMap String String) (compileArgs : List String)
    (po : ProcessOption) (s : String) :
    s ∈ (compileArgs.foldl (addCompileArg job kv) po).argumentList ++
        (compileArgs.foldl (addCompileArg job kv) po).argumentListR ↔
      s ∈ po.argumentList ++ po.argumentListR ∨
        (∃ it ∈ compileArgs, !isJobArg it ∧ s = fixString it kv) ∨
        s ∈ compileArgs.flatMap (jobArg job) := by
  induction compileArgs generalizing po with
  | nil => simp
  | cons it compileArgs ih =>
    rw [List.foldl_cons, ih, mem_addCompileArg, or_assoc, or_or_or_comm, List.flatMap_cons,
      List.exists_mem_cons_iff, List.mem_append (s := jobArg job it)]

/-- Nothing else is set in the loop. -/
theorem addCompileArgs_frame (kv : TreeMap String String) (compileArgs : List String)
    (po : ProcessOption) :
    ∃ l r, compileArgs.foldl (addCompileArg job kv) po =
      { po with argumentList := l, argumentListR := r } := by
  induction compileArgs generalizing po with
  | nil => exact ⟨_, _, rfl⟩
  | cons it compileArgs ih =>
    obtain ⟨l, r, hone⟩ : ∃ l r, addCompileArg job kv po it =
        { po with argumentList := l, argumentListR := r } := by
      rw [addCompileArg]
      split
      · exact ⟨_, _, rfl⟩
      · split
        · split
          · exact ⟨_, _, rfl⟩
          · exact ⟨_, _, rfl⟩
        · exact ⟨_, _, rfl⟩
    rw [List.foldl_cons, hone]
    exact ih _

theorem startCompile_spec {busy started : Bool} {po : ProcessOption}
    (h : startCompile fp busy started context job = (true, job', some po)) :
    Started fp context job job' po := by
  rw [startCompile] at h
  split at h
  · cases h
  · rcases hpre : preProcessJob fp context job with ⟨done, job₁⟩
    rw [hpre] at h
    rcases done with _ | _
    · cases h
    · have hspec := preProcessJob_true hpre
      simp only [Bool.not_true, Bool.false_eq_true, if_false] at h
      split at h
      · cases h
      · simp only [Prod.mk.injEq, Option.some_inj] at h
        obtain ⟨-, rfl, rfl⟩ := h
        have harg : jobArg job₁ = jobArg job := by
          funext it
          rw [jobArg, jobArg, hspec.sourceFiles, hspec.cflags]
        have hframe := @addCompileArgs_frame job₁
          (jobVariables fp context (job₁.sourceFiles.headD "") job₁.outputFile)
          (context.getLanguageDetail job₁.language).compileArgs
        refine ⟨⟨hspec.sourceFiles_ne, hspec.language, hspec.language_ne, hspec.accept,
          hspec.sourceFiles, hspec.cflags, hspec.outputFile⟩, ?_, fun s => ?_, ?_⟩
        · obtain ⟨l, r, hpo⟩ := hframe _
          rw [hpo, ← hspec.language, ← hspec.sourceFiles]
        · rw [mem_addCompileArgs, harg, ← hspec.language, ← hspec.sourceFiles]
          simp
        · obtain ⟨l, r, hpo⟩ := hframe _
          rw [hpo]
          rfl

end Job

/-! ## Main result -/

end Dcfpe.BasicCompiler
