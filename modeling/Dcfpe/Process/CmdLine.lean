import Dcfpe.Process.LaunchOption

/-!
# The arguments of a child process

`MakeCmdLine` puts the image path and each argument between quotes as they are.  What the child
makes of the line are these words again just when quotes and backslashes at the end of a word are
absent; only the image path may end in a backslash, where the program's name is read by a rule of
its own.
-/

set_option autoImplicit false

namespace Dcfpe

/-- The code units the rules for `argv` know. -/
def argvAlphabet : Argv.Alphabet UInt16 where
  slash := 92
  quote := 34
  blank := 32
  isBlank c := c = 32 || c = 9
  slash_ne_quote := by decide
  isBlank_slash := by decide
  isBlank_quote := by decide
  isBlank_blank := by decide

namespace LaunchOption

variable {option : LaunchOption}

theorem foldl_arguments {items : List NativeString} (h : ∀ item ∈ items, item ≠ [])
    (cmd : NativeString) :
    items.foldl (fun cmd item => if item = [] then cmd else cmd ++ ([32, 34] ++ item ++ [34])) cmd =
      cmd ++ items.flatMap fun item => argvAlphabet.blank :: Argv.enclose argvAlphabet item := by
  induction items generalizing cmd with
  | nil => simp
  | cons item items ih =>
    rw [List.foldl_cons, if_neg (h item List.mem_cons_self),
      ih fun item' hitem' => h item' (List.mem_cons_of_mem item hitem'), List.append_assoc,
      List.flatMap_cons]
    rfl

theorem makeCmdLine_eq (himage : option.imagePath ≠ []) (hr : option.argumentListR = [])
    (hargs : ∀ item ∈ option.argumentList, item ≠ []) :
    option.makeCmdLine =
      Argv.line argvAlphabet (option.imagePath :: option.argumentList) := by
  rw [makeCmdLine, if_neg himage, hr, List.foldl_nil, foldl_arguments hargs, Argv.line]
  rfl

/-- The child's arguments are the image path and the items of `argument_list_` just when there is an
image path and none of these words has a quote or a backslash at its end. -/
theorem parse_makeCmdLine_iff (hr : option.argumentListR = [])
    (hargs : ∀ item ∈ option.argumentList, item ≠ []) :
    (Argv.parse argvAlphabet option.makeCmdLine = option.imagePath :: option.argumentList ↔
      option.imagePath ≠ [] ∧
        ∀ word ∈ option.imagePath :: option.argumentList, Argv.Plain argvAlphabet word) ∧
    (Argv.parseCommand argvAlphabet option.makeCmdLine = option.imagePath :: option.argumentList ↔
      option.imagePath ≠ [] ∧ argvAlphabet.quote ∉ option.imagePath ∧
        ∀ word ∈ option.argumentList, Argv.Plain argvAlphabet word) := by
  by_cases himage : option.imagePath = []
  · have hnil : option.makeCmdLine = [] := if_pos himage
    simp [hnil, himage, Argv.parse, Argv.parseFrom, Argv.parseCommand]
  · rw [makeCmdLine_eq himage hr hargs, Argv.parse_line_iff, Argv.parseCommand_line_iff]
    simp [himage]

/-- `cl.exe` with an argument that has a blank in it. -/
def withBlank : LaunchOption where
  imagePath := [99, 108, 46, 101, 120, 101]
  argumentList := [[97, 32, 98]]

theorem parse_makeCmdLine_iff_withBlank :
    Argv.parse argvAlphabet withBlank.makeCmdLine = [[99, 108, 46, 101, 120, 101], [97, 32, 98]] :=
  (@parse_makeCmdLine_iff withBlank rfl (by decide)).1.2 (by decide)

/-- `cl.exe` with a directory, `C:\\`, and one more argument. -/
def withDirectory : LaunchOption where
  imagePath := [99, 108, 46, 101, 120, 101]
  argumentList := [[67, 58, 92], [97]]

theorem parse_makeCmdLine_withDirectory :
    ¬ ∀ option : LaunchOption, option.argumentListR = [] →
      (∀ item ∈ option.argumentList, item ≠ []) →
      Argv.parse argvAlphabet option.makeCmdLine = option.imagePath :: option.argumentList := by
  intro h
  exact absurd (h withDirectory rfl (by decide)) (by decide)

end LaunchOption

end Dcfpe
