import Mathlib.Data.List.Basic

/-!
# Compilers

A service has a list of compiler configurations.  `CreateCompiler` takes the first one that accepts
the language of a source file, if there is one, and makes a `BasicCompiler` or an
`InterpreterCompiler` of it.  The first runs a process for each job; the second has nothing to run
and reports success by a task it posts.

The functions are those of `compiler_impl.cc` and `dpe_service.cc`.  Of a configuration only what
decides whether a compilation starts is kept.  `FilePath::Extension` is a parameter.
-/

set_option autoImplicit false

namespace Dcfpe

/-- `base::StringEqualCaseInsensitive`, which is also how languages and architectures compare. -/
def stringEqualCaseInsensitive (x y : String) : Bool :=
  x.toList.map Char.toLower = y.toList.map Char.toLower

structure LanguageDetail where
  language : String
  compileBinary : String := ""
  deriving DecidableEq, Repr

structure CompilerConfiguration where
  type : String
  arch : String := ""
  languageDetail : List LanguageDetail := []
  deriving DecidableEq, Repr

namespace CompilerConfiguration

def accept (language : String) (config : CompilerConfiguration) : Bool :=
  config.languageDetail.any fun it => stringEqualCaseInsensitive it.language language

/-- `BasicCompiler::GetLanguageDetail`. -/
def getLanguageDetail (language : String) (config : CompilerConfiguration) : LanguageDetail :=
  (config.languageDetail.find? fun it => stringEqualCaseInsensitive it.language language).getD
    { language := "" }

end CompilerConfiguration

/-- The table `info` of `compiler_impl.cc`. -/
def ext2Lang : List (String × String) :=
  [(".c", "c"), (".cpp", "cpp"), (".cc", "cpp"), (".hpp", "cpp"), (".py", "python"),
    (".java", "java"), (".hs", "haskell"), (".go", "go"), (".scala", "scala")]

section Extension

variable (extension : String → String)

/-- `DetectLanguage`; the empty string is `PL_UNKNOWN`. -/
def detectLanguage (files : List String) : String :=
  let find (item : String) : Option (String × String) :=
    ext2Lang.find? fun it => stringEqualCaseInsensitive (extension item) it.1
  (files.findSome? fun item => (find item).map Prod.snd).getD ""

/-- The language, or if it is unknown the one of the files. -/
def languageOf (language : String) (files : List String) : String :=
  if language = "" then detectLanguage extension files else language

/-- What `CreateCompiler` makes. -/
inductive Compiler where
  | basic (context : CompilerConfiguration)
  | interpreter (context : CompilerConfiguration)
  deriving DecidableEq, Repr

/-- The compiler of a configuration, by its type. -/
def CompilerConfiguration.make (config : CompilerConfiguration) : Option Compiler :=
  if stringEqualCaseInsensitive config.type "default" ∨
      stringEqualCaseInsensitive config.type "compiler" then some (.basic config)
  else if stringEqualCaseInsensitive config.type "interpreter" then some (.interpreter config)
  else none

/-- The loop of `CreateCompiler` over `compilers_`. -/
def findCompiler (language arch : String) : List CompilerConfiguration → Option Compiler
  | [] => none
  | it :: compilers =>
    if !it.accept language then findCompiler language arch compilers
    else if arch ≠ "" ∧ !stringEqualCaseInsensitive arch it.arch then
      findCompiler language arch compilers
    else
      match it.make with
      | some compiler => some compiler
      | none => findCompiler language arch compilers

/-- `DPEService::CreateCompiler`; its type and version are not looked at. -/
def createCompiler (compilers : List CompilerConfiguration) (arch language : String)
    (sourceFile : List String) : Option Compiler :=
  let language := languageOf extension language sourceFile
  if language = "" then none else findCompiler language arch compilers

structure CompileJob where
  language : String := ""
  sourceFiles : List String := []
  /-- `compile_process_` is set. -/
  compileProcess : Bool := false
  deriving DecidableEq, Repr

/-- `BasicCompiler::PreProcessJob`: whether the job can be compiled, and its language. -/
def preProcessJob (context : CompilerConfiguration) (job : CompileJob) : Bool × CompileJob :=
  if job.sourceFiles = [] then (false, job)
  else
    let job := { job with language := languageOf extension job.language job.sourceFiles }
    if job.language = "" then (false, job)
    else if !context.accept job.language then (false, job)
    else (true, job)

/-- `StartCompile` of a new compiler; `started` says whether the process starts. -/
def Compiler.startCompile (started : Bool) (job : CompileJob) : Compiler → Bool × CompileJob
  | .basic context =>
    let (done, job) := preProcessJob extension context job
    if !done then (false, job)
    else if (context.getLanguageDetail job.language).compileBinary = "" then (false, job)
    else (started, { job with compileProcess := started })
  | .interpreter context => (true, (preProcessJob extension context job).2)

/-! ## Which compilations can start -/

/-- There is a compiler for the file. -/
def HasCompiler (compilers : List CompilerConfiguration) (language file : String) : Prop :=
  (createCompiler extension compilers "" language [file]).isSome = true

instance (compilers : List CompilerConfiguration) (language file : String) :
    Decidable (HasCompiler extension compilers language file) :=
  inferInstanceAs (Decidable (_ = _))

/-- There is a compiler for the file, and if its process starts it compiles it. -/
def Compilable (compilers : List CompilerConfiguration) (language file : String) : Prop :=
  ∃ c ∈ createCompiler extension compilers "" language [file],
    (c.startCompile extension true { language := language, sourceFiles := [file] }).1 = true

theorem preProcessJob_compileProcess (context : CompilerConfiguration) (job : CompileJob) :
    (preProcessJob extension context job).2.compileProcess = job.compileProcess := by
  rw [preProcessJob]
  split
  · rfl
  · simp only
    split
    · rfl
    · split <;> rfl

/-- A compilation that starts would start with its process; and its job has a process exactly if the
compiler is no interpreter. -/
theorem Compiler.startCompile_spec {c : Compiler} {started : Bool} {job job' : CompileJob}
    (h : c.startCompile extension started job = (true, job')) :
    (c.startCompile extension true job).1 = true ∧
      job'.compileProcess =
        match c with
        | .basic _ => true
        | .interpreter _ => job.compileProcess := by
  cases c with
  | basic context =>
    rw [startCompile] at h ⊢
    cases hpre : preProcessJob extension context job with
    | mk done job'' =>
      simp only [hpre] at h ⊢
      split at h
      · cases h
      · next hdone =>
        split at h
        · cases h
        · next hbinary =>
          obtain ⟨rfl, rfl⟩ := Prod.mk.inj h
          rw [if_neg hdone, if_neg hbinary]
          exact ⟨rfl, rfl⟩
  | interpreter context =>
    rw [startCompile] at h
    obtain ⟨-, rfl⟩ := Prod.mk.inj h
    exact ⟨rfl, preProcessJob_compileProcess extension context job⟩

end Extension

end Dcfpe
