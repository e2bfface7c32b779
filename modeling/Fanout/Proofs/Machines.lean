import Fanout.Batch.Run
import Fanout.Proofs.Programs

/-!
# Batches on a machine

A machine starts each program on the files as they are, with an empty input and nothing else of what
ran before. So as long as no command reaches a shell, the commands of a batch do not notice each
other: each of them does what it does alone.

* `Machine.ReachesShell`: the words lead to a shell.
* `start_eq`: what was written before a start has no part in it.
* `tree_start`: without a shell, the files stay.
* `run_alone`: a batch that reaches no shell is its commands one by one.
-/

namespace Fanout

namespace Machine

/-- Among the files of the tree, the words lead to a shell. -/
def ReachesShell (t : FileTree) (words : List Text) : Prop :=
  ∃ path, find t (words.headD []) = .ok path ∧ t.node? path = .ok (.program shellName.toList)

/-! ## One start -/

/-- What becomes of a start depends on the files alone. What was written before stays in front. -/
theorem start_eq (m : Machine) (words : List Text) :
    let alone := start { tree := m.tree } words
    m.start words =
      (⟨alone.1.tree, m.output ++ alone.1.output, m.errors ++ alone.1.errors⟩, alone.2) := by
  simp [start]

/-- Words that lead to no shell leave the files as they are. -/
theorem tree_start {m : Machine} {words : List Text} (h : ¬ReachesShell m.tree words) :
    (m.start words).1.tree = m.tree := by
  unfold start
  extract_lets fresh name started p tree
  have hfresh : fresh.Watches m.tree := Process.onTree_watches m.tree environment
  have hp : p.Watches m.tree := by
    unfold p started
    split
    · exact hfresh
    · split_ifs
      · exact hfresh
      · split
        · exact hfresh
        · exact hfresh
        · next path hfind =>
          exact launch_watches hfresh (fun hshell => h ⟨path, hfind, hshell⟩) maxShells _
  change { p.tree with workingDir := m.tree.workingDir } = m.tree
  rw [hp.tree_eq]

/-! ## Batches -/

section Batches

variable (settings : Settings)

/-- What becomes of a command on a machine that has the files and nothing else. -/
def alone (t : FileTree) (command : Text) : Machine × Batch.Event :=
  Batch.runOne host settings { tree := t } command

/-- The command is started and reaches a shell, among the files of the tree. -/
def CallsShell (t : FileTree) (command : Text) : Prop :=
  settings.dryRun = false ∧
    ∃ words, Command.words? settings command = some words ∧ words ≠ [] ∧ ReachesShell t words

theorem runOne_eq (m : Machine) (command : Text) :
    let one := alone settings m.tree command
    Batch.runOne host settings m command =
      (⟨one.1.tree, m.output ++ one.1.output, m.errors ++ one.1.errors⟩, one.2) := by
  unfold alone Batch.runOne
  split_ifs
  · simp
  · split
    · simp
    · simp
    · next words _ _ =>
      have hstart : host.start m words = _ := start_eq m words
      rw [hstart]
      rfl

theorem tree_alone {t : FileTree} {command : Text} (h : ¬CallsShell settings t command) :
    (alone settings t command).1.tree = t := by
  unfold alone Batch.runOne
  split_ifs with hdry
  · rfl
  · split
    · rfl
    · rfl
    · next words hne hwords =>
      refine tree_start fun hshell => h ⟨by simpa using hdry, words, hwords, ?_, hshell⟩
      rintro rfl
      exact hne rfl

/-- As long as no command calls a shell, a batch is its commands one by one: the files stay, each
event is that of the command alone, and so is what each command writes. -/
theorem run_alone (m : Machine) (commands : List Text)
    (h : ∀ command ∈ commands, ¬CallsShell settings m.tree command) :
    let ends := commands.map (alone settings m.tree)
    Batch.run host settings m commands =
      (⟨m.tree, (ends.map (·.1.output)).foldl (· ++ ·) m.output,
        (ends.map (·.1.errors)).foldl (· ++ ·) m.errors⟩, ends.map Prod.snd) := by
  induction commands generalizing m with
  | nil => rfl
  | cons command commands ih =>
    obtain ⟨hcommand, hcommands⟩ := List.forall_mem_cons.mp h
    let one := alone settings m.tree command
    let next : Machine := ⟨m.tree, m.output ++ one.1.output, m.errors ++ one.1.errors⟩
    have hone : Batch.runOne host settings m command = (next, one.2) := by
      rw [runOne_eq, tree_alone settings hcommand]
    have hrest := ih next hcommands
    intro ends
    rw [Batch.run_cons, hone, hrest]
    rfl

/-- Commands that call no shell have the same summary in every order. -/
theorem summary_perm (m : Machine) {xs ys : List Text} (hperm : xs.Perm ys)
    (h : ∀ command ∈ xs, ¬CallsShell settings m.tree command) :
    Batch.Summary.ofEvents (Batch.run host settings m xs).2 =
      Batch.Summary.ofEvents (Batch.run host settings m ys).2 := by
  have hys : ∀ command ∈ ys, ¬CallsShell settings m.tree command := fun command hmem =>
    h command (hperm.mem_iff.mpr hmem)
  have hevents : (Batch.run host settings m xs).2.Perm (Batch.run host settings m ys).2 := by
    rw [run_alone settings m xs h, run_alone settings m ys hys]
    exact (hperm.map _).map _
  rw [Batch.Summary.ofEvents, Batch.Summary.ofEvents, hevents.length_eq, hevents.countP_eq]

end Batches

end Machine

end Fanout
