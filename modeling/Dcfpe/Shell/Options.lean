import Dcfpe.Dpe.Options
import Dcfpe.Shell.Proto

/-!
# The command line of the remote shell

The loop over the arguments in `main`, which has a key without a value and gives up on a word that
is no key.  `argLoops_inBounds_iff` is about this loop and the one of `RunDpe`: a key that takes a
value and is the last word makes both of them read `argv[argc]`.
-/

set_option autoImplicit false

namespace Dcfpe.Rs

open OptionLoop

namespace Main

/-- The flags and the corresponding values. -/
structure Args where
  loggingLevel : Int := 1
  isListener : Int := 0
  sid : Int := 0
  host : Text := []
  target : Text := []
  scriptFile : Text := []
  action : Text := []
  deriving DecidableEq, Repr

/-- The branches of the loop. -/
inductive Key where
  | log
  | bind
  | host
  | sid
  | target
  | file
  | action
  deriving DecidableEq, Repr

def Key.ofName (str : Text) : Option Key :=
  if str = "l".toList ∨ str = "log".toList then some .log
  else if str = "b".toList ∨ str = "bind".toList then some .bind
  else if str = "h".toList ∨ str = "host".toList then some .host
  else if str = "s".toList ∨ str = "sid".toList then some .sid
  else if str = "t".toList ∨ str = "target".toList then some .target
  else if str = "f".toList ∨ str = "file".toList then some .file
  else if str = "a".toList ∨ str = "action".toList then some .action
  else none

def Key.set (key : Key) (value : Text) (args : Args) : Args :=
  match key with
  | .log => { args with loggingLevel := atoi (String.ofList value) }
  | .bind => { args with isListener := 1 }
  | .host => { args with host := value }
  | .sid => { args with sid := atoi (String.ofList value) }
  | .target => { args with target := value }
  | .file => { args with scriptFile := value }
  | .action => { args with action := value }

/-- The loop of `main`, which has `ParseCmd` too. -/
def program : Program Key Args where
  parse := parseCmd
  key := Key.ofName
  takesValue key := key ≠ .bind
  set := Key.set
  strict := true

def parseArgs (argv : List Text) : Outcome Args := run program argv argv.length 1 {}

/-- `-b` takes no value, so the word after it is a key. -/
example : parseArgs (["rs", "-b", "--log=2"].map String.toList) =
    .done { loggingLevel := 2, isListener := 1 } := by decide

/-- **When the argument loops stay inside argv.**  After `argv[0]` there are whole options. -/
theorem argLoops_inBounds_iff (interfaceAddress : String) (argv : List Text) :
    ((RunDpe.parseFlags interfaceAddress argv).InBounds ↔ Complete RunDpe.program argv.tail) ∧
      ((parseArgs argv).InBounds ↔ Complete program argv.tail) :=
  ⟨run_inBounds_iff argv (RunDpe.defaults interfaceAddress), run_inBounds_iff argv ({} : Args)⟩

/-- `dpe -t` and `rs -t`. -/
theorem argLoops_outOfRange : ¬ ((∀ (interfaceAddress : String) (argv : List (List Char)),
      (RunDpe.parseFlags interfaceAddress argv).InBounds) ∧
    ∀ argv : List Text, (parseArgs argv).InBounds) := by
  rintro ⟨h, -⟩
  have hlast : RunDpe.parseFlags "" ["dpe".toList, "-t".toList] = .outOfRange := by decide
  have := h "" ["dpe".toList, "-t".toList]
  rw [hlast] at this
  exact this

end Main

end Dcfpe.Rs
