import Fanout.Batch.Run
import Fanout.Proofs.Words

/-!
# What a dry run shows

A dry run writes a line for each command, and a real run gives words to the host. The two agree: the
line of a command, split by a shell, is what the real run splits or wraps the command into, whatever
quotes the command, the input and the name of the shell have. Input that is piped in front of a
command is one word of the script, so nothing in it can become a command.

* `Command.split_display`: one command.
* `Command.split_script`: the words of a script with input; `Command.split_piped`: the same with
  what is started and shown for it.
* `run_dry`, `run_real`: what the two runs of a batch do, command by command.
* `calls_of_shown`: the lines of the one tell the calls of the other.
-/

namespace Fanout

namespace Command

/-- The line that is shown for a command is split into the words that are started. -/
theorem split_display (settings : Settings) (command : Text) :
    ShellWord.split (display settings command) = words? settings command := by
  rw [display, words?]
  by_cases hdirect : isDirect settings = true
  · rw [if_pos hdirect, if_pos hdirect]
  · rw [if_neg hdirect, if_neg hdirect, ShellWord.split_join]

/-- Input with quotes in it is quoted twice, for the pipe and for the line. -/
example : display { input := some "it's".toList } "wc -w".toList =
    "sh -c 'echo '\\''it'\\''\\'\\'''\\''s'\\'' | wc -w'".toList := by decide

/-- A shell reads the command that writes the input as the one word it is. -/
theorem spells_echo (shell : Shell) : ShellWord.Spells shell.echo [shell.echo] := by
  cases shell <;> rfl

/-- Outside quotes a bar is a word of its own when blanks stand around it. -/
theorem spells_bar : ShellWord.Spells ['|'] [['|']] := rfl

/-- The words of a script with input: the command that writes it, the input as it is, a bar, and the
words of the command. When the command leaves a quote open, so does the script. -/
theorem split_script (shell : Shell) (input command : Text) :
    ShellWord.split (script shell (some input) command) =
      (ShellWord.split command).map ([shell.echo, input, ['|']] ++ ·) := by
  have hscript : script shell (some input) command =
      shell.echo ++ ' ' :: (ShellWord.quote input ++ ' ' :: (['|'] ++ ' ' :: command)) := by
    simp [script]
  -- Each part ends where a blank follows, so the line goes on behind it as if it began there.
  rw [hscript, (spells_echo shell).split_append_space,
    (ShellWord.spells_quote input).split_append_space, spells_bar.split_append_space,
    Option.map_map, Option.map_map]
  rfl

/-- With input, a shell is started with a script as its last word. The script is split into the
command that writes the input, the input unchanged in one word, a bar, and the words of the command,
and it can be split exactly when the command can. What is shown is split into the shell, its flag
and that script. -/
theorem split_piped (settings : Settings) (shell : Shell) (input command : Text) :
    let piped : Settings := { settings with shell, input := some input }
    ∃ text, shellWords shell (some input) command = [shell.program, shell.scriptFlag, text] ∧
      words? piped command = some [shell.program, shell.scriptFlag, text] ∧
      ShellWord.split text =
        (ShellWord.split command).map ([shell.echo, input, ['|']] ++ ·) ∧
      ShellWord.split (display piped command) = some [shell.program, shell.scriptFlag, text] := by
  intro piped
  have hwords : words? piped command =
      some [shell.program, shell.scriptFlag, script shell (some input) command] := by
    have hdirect : isDirect piped = false := by cases shell <;> rfl
    rw [words?, hdirect]
    rfl
  refine ⟨script shell (some input) command, rfl, hwords, split_script shell input command, ?_⟩
  rw [split_display, hwords]

end Command

namespace Batch

variable {σ : Type} (host : Host σ) (settings : Settings)

/-- The words that a host is called with. No call is made for a command that cannot be split, nor
for one without words. -/
def called (words : Option (List Text)) : Option (List Text) := words.filter (· ≠ [])

/-- The state of a host that is called with each of the words in turn. -/
def stateAfter (state : σ) (calls : List (List Text)) : σ :=
  calls.foldl (fun s words => (host.start s words).1) state

/-- A dry run calls no host, and shows every command. -/
theorem run_dry (h : settings.dryRun = true) (state : σ) (commands : List Text) :
    run host settings state commands =
      (state, commands.map fun c => .shown (Command.display settings c)) := by
  induction commands with
  | nil => rfl
  | cons c cs ih =>
    have hone : runOne host settings state c = (state, .shown (Command.display settings c)) := by
      rw [runOne, if_pos h]
    rw [run, hone]
    simp only [ih, List.map_cons]

/-- What a real run does with one command. -/
theorem runOne_real (h : settings.dryRun = false) (state : σ) (command : Text) :
    (runOne host settings state command).2.words? = called (Command.words? settings command) ∧
      (runOne host settings state command).1 =
        stateAfter host state (called (Command.words? settings command)).toList := by
  rw [runOne, if_neg (by simp [h])]
  cases Command.words? settings command with
  | none => exact ⟨rfl, rfl⟩
  | some words =>
    cases words with
    | nil => exact ⟨rfl, rfl⟩
    | cons w ws => exact ⟨rfl, rfl⟩

/-- A real run calls the host with the words of each command, in order, and its state goes through
these calls. -/
theorem run_real (h : settings.dryRun = false) (state : σ) (commands : List Text) :
    (run host settings state commands).2.filterMap Event.words? =
        commands.filterMap (fun c => called (Command.words? settings c)) ∧
      (run host settings state commands).1 =
        stateAfter host state (commands.filterMap fun c => called (Command.words? settings c)) := by
  induction commands generalizing state with
  | nil => exact ⟨rfl, rfl⟩
  | cons c cs ih =>
    obtain ⟨hwords, hstate⟩ := runOne_real host settings h state c
    obtain ⟨hrest, hlast⟩ := ih (runOne host settings state c).1
    rw [run_cons, List.filterMap_cons, List.filterMap_cons, hwords, hrest, hlast, hstate]
    cases called (Command.words? settings c) with
    | none => exact ⟨rfl, rfl⟩
    | some words => exact ⟨rfl, rfl⟩

/-- A dry run tells what a real run does. It calls no host and writes a line for each command; each
line is split into what the command is split or wrapped into; and the real run calls its host with
the words of these lines, one after another, leaving out the lines without any. -/
theorem calls_of_shown (state : σ) (commands : List Text) :
    let dry := run host { settings with dryRun := true } state commands
    let real := run host { settings with dryRun := false } state commands
    let lines := dry.2.filterMap Event.line?
    let calls := lines.filterMap fun line => called (ShellWord.split line)
    (∀ command, ShellWord.split (Command.display settings command) =
        Command.words? settings command) ∧
      (dry.1 = state ∧ lines = commands.map (Command.display settings) ∧
        shownText dry.2 = lines.flatMap (· ++ ['\n'])) ∧
      real.2.filterMap Event.words? = calls ∧ real.1 = stateAfter host state calls := by
  intro dry real lines calls
  have hsplit (command : Text) : ShellWord.split (Command.display settings command) =
      Command.words? settings command := Command.split_display settings command
  have hdry : dry = (state, commands.map fun c => .shown (Command.display settings c)) :=
    run_dry host { settings with dryRun := true } rfl state commands
  have hlines : lines = commands.map (Command.display settings) := by
    have hline : (dry.2.filterMap Event.line?) = commands.map (Command.display settings) := by
      have hshown : (Event.line? ∘ fun c => Event.shown (Command.display settings c)) =
          fun c => some (Command.display settings c) := rfl
      rw [hdry, List.filterMap_map, hshown, List.filterMap_eq_map']
    exact hline
  have hcalls : calls = commands.filterMap fun c => called (Command.words? settings c) := by
    have hline : (lines.filterMap fun line => called (ShellWord.split line)) =
        commands.filterMap fun c => called (Command.words? settings c) := by
      rw [hlines, List.filterMap_map]
      exact List.filterMap_congr fun c _ => congrArg called (hsplit c)
    exact hline
  have hreal := run_real host { settings with dryRun := false } rfl state commands
  rw [hcalls]
  exact ⟨hsplit, ⟨by rw [hdry], hlines, rfl⟩, hreal⟩

end Batch

end Fanout
