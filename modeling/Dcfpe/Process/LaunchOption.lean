import Dcfpe.Lib.Argv

/-!
# What a child process is started with

`Process::Start` makes a command line of the image path and the arguments in `ProcessOption`, and an
environment block of the variables it has of its own and those of the three lists.

The functions are those of `process_impl.cc`.  A `NativeString` is the list of its 16-bit code
units, and what `GetEnvironmentStringsW` returns the list of those in memory.
-/

set_option autoImplicit false

namespace Dcfpe

abbrev NativeString := List UInt16

abbrev EnvVarList := List (NativeString × NativeString)

/-- The part of `ProcessOption` that the command line and the environment block depend on. -/
structure LaunchOption where
  imagePath : NativeString := []
  argumentList : List NativeString := []
  argumentListR : List NativeString := []
  inheritEnvVar : Bool := true
  envVarKeep : EnvVarList := []
  envVarMerge : EnvVarList := []
  envVarReplace : EnvVarList := []
  deriving DecidableEq, Repr

namespace LaunchOption

def makeCmdLine (option : LaunchOption) : NativeString :=
  if option.imagePath = [] then []
  else
    let cmd := [34] ++ option.imagePath ++ [34]
    let cmd := option.argumentList.foldl
      (fun cmd item => if item = [] then cmd else cmd ++ ([32, 34] ++ item ++ [34])) cmd
    option.argumentListR.foldl
      (fun cmd item => if item = [] then cmd else cmd ++ ([32] ++ item)) cmd

/-! ## The environment -/

/-- The strings the loop of `CurrentEnvironmentVariable` reads from some memory on, `cur` being what
it has of the string it is in; each ends in a NUL, and one more NUL ends the loop. -/
def stringsFrom (cur : NativeString) : List UInt16 → List NativeString
  | [] => []
  | c :: s =>
    if c = 0 then (if cur = [] then [] else cur :: stringsFrom [] s) else stringsFrom (cur ++ [c]) s

/-- What stands before the first `=` of a string, and what stands after it. -/
def splitEntry (i : NativeString) : Option (NativeString × NativeString) :=
  let eq := (i.takeWhile (· ≠ 61)).length
  if eq < i.length then some (i.take eq, i.drop (eq + 1)) else none

/-- `v` is what `GetEnvironmentStringsW` returns. -/
def currentEnvironmentVariable (v : Option (List UInt16)) : EnvVarList :=
  match v with
  | none => []
  | some v => (stringsFrom [] v).filterMap splitEntry

/-- `tolower` of a code unit is a parameter. -/
def stringEqualCaseInsensitive (lower : UInt16 → UInt16) (x y : NativeString) : Bool :=
  x.length = y.length && (x.zip y).all fun (a, b) => lower a = lower b

/-- The body of the three loops of `MakeEnvironmentVariable`: the first entry of the same name gets
another value, and when there is none the new entry goes to the end. -/
def place (lower : UInt16 → UInt16) (change : NativeString → NativeString → NativeString) :
    EnvVarList → NativeString × NativeString → EnvVarList
  | [], iter => [iter]
  | it :: temp, iter =>
    if stringEqualCaseInsensitive lower iter.1 it.1 then (it.1, change iter.2 it.2) :: temp
    else it :: place lower change temp iter

def keep (lower : UInt16 → UInt16) : EnvVarList → NativeString × NativeString → EnvVarList :=
  place lower fun _ old => old

def merge (lower : UInt16 → UInt16) : EnvVarList → NativeString × NativeString → EnvVarList :=
  place lower fun new old => new ++ old

def replace (lower : UInt16 → UInt16) : EnvVarList → NativeString × NativeString → EnvVarList :=
  place lower fun new _ => new

/-- The last loop of `MakeEnvironmentVariable`, and the two NULs. -/
def environmentBlock (temp : EnvVarList) : NativeString :=
  temp.foldl (fun ret iter =>
    (if ret = [] then ret else ret ++ [0]) ++ iter.1 ++ [61] ++ iter.2) [] ++ [0, 0]

variable (lower : UInt16 → UInt16) (v : Option (List UInt16)) (option : LaunchOption)

/-- What `temp` starts with. -/
def inherited : EnvVarList :=
  if option.inheritEnvVar then (currentEnvironmentVariable v).filter (·.1 ≠ []) else []

/-- `temp` after the three loops. -/
def environment : EnvVarList :=
  option.envVarReplace.foldl (replace lower)
    (option.envVarMerge.foldl (merge lower)
      (option.envVarKeep.foldl (keep lower) (option.inherited v)))

def makeEnvironmentVariable : NativeString :=
  if option.inheritEnvVar && option.envVarKeep.isEmpty && option.envVarMerge.isEmpty &&
      option.envVarReplace.isEmpty then []
  else environmentBlock (option.environment lower v)

end LaunchOption

end Dcfpe
