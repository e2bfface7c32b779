import Fanout.Machine.Host
import Mathlib.Data.List.Basic

/-!
# What programs leave alone

A process changes a file only through a stream that is one. The programs of a machine open none for
writing, so a process that starts without such a stream leaves all files as they are, whatever it is
called with. Only a shell opens files to write to them.

* `Process.nodeAt?_writeTo`: what is written through a descriptor lands in one file at most.
* `Process.Watches`: the process has the files of a tree, and no stream that is one.
* `Program.Harmless`: the program keeps that; `harmless_of_mem_programs`: each of them does.
* `launch_watches`: so does everything a machine starts, but for shells.
-/

namespace Fanout

namespace Process

/-! ## One write -/

/-- What is written through a descriptor changes no node but the file it leads to. -/
theorem nodeAt?_writeTo {p q : Process} {d : Descriptor} {b : ByteArray}
    (h : p.writeTo d b = .ok q) {m : Location} (hm : m ≠ [])
    (hother : ∀ place appends, p.streams.lookup d.stream ≠ some (.file m place appends)) :
    q.tree.nodeAt? m = p.tree.nodeAt? m := by
  unfold writeTo at h
  split at h
  · exact absurd h (by simp)
  · exact absurd h (by simp)
  · exact absurd h (by simp)
  · obtain rfl := Except.ok.inj h
    rfl
  · obtain rfl := Except.ok.inj h
    rfl
  · split_ifs at h
    obtain rfl := Except.ok.inj h
    rfl
  · obtain rfl := Except.ok.inj h
    rfl
  · next l place appends hwrites hstream =>
    have hne : m ≠ l := by
      rintro rfl
      exact hother place appends hstream
    split at h
    · obtain rfl := Except.ok.inj h
      simp [FileTree.nodeAt?_replace hm, hne]
    · obtain rfl := Except.ok.inj h
      rfl

/-! ## Processes without files to write to -/

/-- The process works on the files of the tree and has no way to change them: none of its streams is
a file. -/
structure Watches (p : Process) (t : FileTree) : Prop where
  tree_eq : p.tree = t
  no_file : ∀ x ∈ p.streams, x.2.isFile = false

section Watches

variable {p : Process} {t : FileTree}

theorem onTree_watches (t : FileTree) (environment : List (Text × Text)) :
    (onTree t environment).Watches t where
  tree_eq := rfl
  no_file := by simp [onTree, Stream.isFile]

theorem Watches.lookup_ne_file (h : p.Watches t) (n : Nat) (l : Location) (place : Nat)
    (appends : Bool) : p.streams.lookup n ≠ some (.file l place appends) := by
  intro hstream
  obtain ⟨before, behind, hsplit, -⟩ := List.lookup_eq_some_iff.mp hstream
  have hfile := h.no_file (n, .file l place appends) (by rw [hsplit]; simp)
  exact absurd hfile (by simp [Stream.isFile])

theorem Watches.setStream (h : p.Watches t) {s : Stream} (hs : s.isFile = false) (n : Nat) :
    (p.setStream n s).Watches t where
  tree_eq := h.tree_eq
  no_file x hx := by
    obtain ⟨⟨k, old⟩, hmem, rfl⟩ := List.mem_map.mp hx
    by_cases hk : k = n
    · simpa [hk] using hs
    · simpa [hk] using h.no_file _ hmem

theorem Watches.writeTo (h : p.Watches t) {d : Descriptor} {b : ByteArray} {q : Process}
    (hq : p.writeTo d b = .ok q) : q.Watches t := by
  unfold Process.writeTo at hq
  split at hq
  · exact absurd hq (by simp)
  · exact absurd hq (by simp)
  · exact absurd hq (by simp)
  · obtain rfl := Except.ok.inj hq
    exact ⟨h.tree_eq, h.no_file⟩
  · obtain rfl := Except.ok.inj hq
    exact h
  · split_ifs at hq
    obtain rfl := Except.ok.inj hq
    exact h
  · obtain rfl := Except.ok.inj hq
    exact h.setStream rfl _
  · next hstream => exact absurd hstream (h.lookup_ne_file _ _ _ _)

theorem Watches.write (h : p.Watches t) (c : Channel) (b : ByteArray) :
    (p.write c b).Watches t := by
  have hblocked (e : SystemError) :
      (if c = .output then { p with writeFault := some e } else p : Process).Watches t := by
    split_ifs
    · exact ⟨h.tree_eq, h.no_file⟩
    · exact h
  unfold Process.write
  simp only
  split
  · exact h
  · split
    · exact hblocked _
    · split
      · next hq => exact h.writeTo hq
      · exact hblocked _

theorem Watches.say (h : p.Watches t) (text : Text) : (p.say text).Watches t := h.write _ _

theorem Watches.complain (h : p.Watches t) (text : Text) : (p.complain text).Watches t :=
  h.write _ _

theorem Watches.advance (h : p.Watches t) (d : Descriptor) (n : Nat) :
    (p.advance d n).Watches t := by
  unfold Process.advance
  split
  · exact h.setStream rfl _
  · next hstream => exact absurd hstream (h.lookup_ne_file _ _ _ _)
  · exact h

theorem Watches.drainFrom (h : p.Watches t) (d : Option Descriptor) :
    (p.drainFrom d).2.Watches t := by
  unfold Process.drainFrom
  split
  · exact h
  · split
    · exact h.advance _ _
    · exact h

theorem Watches.drain (h : p.Watches t) : p.drain.2.Watches t := h.drainFrom _

theorem Watches.readPath (h : p.Watches t) (path : Text) : (p.readPath path).2.Watches t := by
  unfold Process.readPath
  split
  · exact h
  · split
    · exact h
    · split
      · exact h
      · exact h.drainFrom _
  · exact h

theorem Watches.readOperand (h : p.Watches t) (operand : Text) :
    (p.readOperand operand).2.Watches t := by
  unfold Process.readOperand
  split_ifs
  · exact h.drain
  · exact h.readPath _

theorem Watches.ite (h : p.Watches t) {q : Process} (hq : q.Watches t) (c : Prop) [Decidable c] :
    (if c then p else q).Watches t := by
  split_ifs
  · exact h
  · exact hq

/-- What each step keeps, all of them keep. -/
theorem Watches.foldl {α : Type} (h : p.Watches t) (f : Process → α → Process)
    (hf : ∀ p a, p.Watches t → (f p a).Watches t) (xs : List α) : (xs.foldl f p).Watches t := by
  induction xs generalizing p with
  | nil => exact h
  | cons a xs ih => exact ih (hf p a h)

end Watches

end Process

/-! ## Programs -/

namespace Program

section Parts

variable {p : Process} {t : FileTree}

theorem Speaker.complain_watches (h : p.Watches t) (s : Speaker) (why : Text) :
    (s.complain why p).Watches t := h.complain _

theorem Speaker.complainOfUse_watches (h : p.Watches t) (s : Speaker) (why : List Text) :
    (s.complainOfUse why p).Watches t := h.complain _

theorem Speaker.closeOutput_watches {ended : Process × ExitStatus} (h : ended.1.Watches t)
    (s : Speaker) (code : Nat) : (s.closeOutput code ended).1.Watches t := by
  unfold Speaker.closeOutput
  split
  · exact h
  · have hcleared : ({ ended.1 with writeFault := none } : Process).Watches t :=
      ⟨h.tree_eq, h.no_file⟩
    exact Speaker.complain_watches hcleared s _

theorem readOperands_watches {operands : List Text} {sources : List Source} {q : Process}
    (hread : readOperands operands p = (sources, q)) (h : p.Watches t) : q.Watches t := by
  induction operands generalizing p sources with
  | nil =>
    obtain ⟨-, rfl⟩ := Prod.mk.inj hread
    exact h
  | cons operand rest ih =>
    obtain ⟨-, rfl⟩ := Prod.mk.inj hread
    exact ih rfl (h.readOperand operand)

theorem Source.complain_watches (h : p.Watches t) (source : Source) (s : Speaker)
    (display : Text → Text) : (source.complain s display p).Watches t := by
  unfold Source.complain
  split
  · exact h
  · exact Speaker.complain_watches h s _

theorem CatProgress.next_watches {c : CatProgress} (h : c.process.Watches t) (s : Speaker)
    (look : ByteArray → ByteArray) (operand : Text) :
    (c.next s look operand).process.Watches t := by
  unfold CatProgress.next
  simp only
  split_ifs
  · exact Speaker.complain_watches h s _
  · split
    · exact Speaker.complain_watches (h.readOperand operand) s _
    · exact (h.readOperand operand).write _ _

theorem CatProgress.foldl_watches {c : CatProgress} (h : c.process.Watches t) (s : Speaker)
    (look : ByteArray → ByteArray) (operands : List Text) :
    (operands.foldl (CatProgress.next s look) c).process.Watches t := by
  induction operands generalizing c with
  | nil => exact h
  | cons operand rest ih => exact ih (CatProgress.next_watches h s look operand)

end Parts

/-- Without a stream to write to a file, the program has none in the end either, and has left the
files as they were. -/
def Harmless (program : Program) : Prop :=
  ∀ (t : FileTree) (args : List Text) (p : Process), p.Watches t → (program args p).1.Watches t

theorem echo_harmless (s : Speaker) : Harmless (echo s) := fun _ _ _ h =>
  Speaker.closeOutput_watches (h.write _ _) s 1

theorem condition_harmless (s : Speaker) : Harmless (condition s) := by
  intro t args p h
  unfold condition concluded
  split
  · exact h
  · exact Speaker.complain_watches h s _

theorem bracketed_harmless (s : Speaker) : Harmless (bracketed s) := by
  intro t args p h
  unfold bracketed
  simp only
  split_ifs
  · exact condition_harmless s t _ p h
  · exact Speaker.complain_watches h s _

theorem formatIn_harmless (m : FormatManner) (s : Speaker) : Harmless (formatIn m s) := by
  intro t args p h
  unfold formatIn
  simp only
  split
  · exact Speaker.complain_watches h s _
  · split_ifs
    · exact Speaker.complain_watches h s _
    · exact Speaker.complainOfUse_watches h s _
  · split
    · exact (h.foldl _ (fun p f hp => Speaker.complain_watches hp s _) _).write _ _
    · refine Speaker.closeOutput_watches ?_ s 1
      refine h.foldl _ (fun p e hp => ?_) _
      cases e with
      | written text => exact hp.write _ _
      | fault f => exact Speaker.complain_watches hp s _

theorem cat_harmless (s : Speaker) : Harmless (cat s) := by
  intro t args p h
  unfold cat
  split
  · exact Speaker.complainOfUse_watches h s _
  · split
    · exact Speaker.complain_watches h s _
    · refine Speaker.closeOutput_watches ?_ s 1
      have hall (look : ByteArray → ByteArray) (operands : List Text) :
          (operands.foldl (CatProgress.next s look) { process := p }).process.Watches t :=
        CatProgress.foldl_watches (c := { process := p }) h s look operands
      exact (Speaker.complain_watches (hall _ _) s _).ite (hall _ _) _

theorem count_harmless (s : Speaker) : Harmless (count s) := by
  intro t args p h
  unfold count
  split
  · exact Speaker.complainOfUse_watches h s _
  · split
    · exact Speaker.complainOfUse_watches h s _
    · next rule _ =>
      extract_lets measures implied fromFile sum hasTotal label
      split
      next sources read hread =>
        have hq := readOperands_watches hread h
        extract_lets width listed totals counted isClosed closed
        have hlisted : listed.Watches t := by
          refine hq.foldl _ (fun q source hq => ?_) _
          have hsource := Source.complain_watches hq source s (countName implied)
          exact (hsource.say _).ite hsource _
        have hcounted : counted.Watches t := (hlisted.say _).ite hlisted _
        exact Speaker.closeOutput_watches
          ((Speaker.complain_watches hcounted s _).ite hcounted _) s 1

theorem replace_harmless (s : Speaker) : Harmless (replace s) := by
  intro t args p h
  unfold replace
  extract_lets failed
  have hfailed (why : Text) : (failed why).1.Watches t := Speaker.complain_watches h s why
  split
  · exact Speaker.complainOfUse_watches h s _
  · split
    · exact Speaker.complainOfUse_watches h s _
    · split
      · exact hfailed _
      · extract_lets named given second first
        split
        · exact hfailed _
        · split
          · exact hfailed _
          · next hdrain =>
            have hread := h.drain
            rw [hdrain] at hread
            exact Speaker.closeOutput_watches (hread.write _ _) s 1

theorem selectFrom_watches {p : Process} {t : FileTree} (h : p.Watches t) (selection : Selection)
    (s : Speaker) (files : List Text) : (selectFrom selection s files p).1.Watches t := by
  unfold selectFrom
  extract_lets labelled isSelected isFound
  split
  next sources read hread =>
    have hq := readOperands_watches hread h
    extract_lets selected found heard shown failed
    refine Speaker.closeOutput_watches (?_ : shown.Watches t) s 2
    refine hq.foldl _ (fun q entry hq => ?_) _
    dsimp only
    split
    · exact hq.ite (Source.complain_watches hq _ s _) _
    · exact (hq.say _).ite (Speaker.complain_watches (hq.say _) s _) _

theorem select_harmless (s : Speaker) : Harmless (select s) := by
  intro t args p h
  unfold select
  extract_lets short
  split
  · exact Speaker.complainOfUse_watches h _ _
  · split
    · exact Speaker.complain_watches h s _
    · extract_lets named isNamed
      split
      · exact h.complain _
      · split
        split
        · exact Speaker.complain_watches h s _
        · exact selectFrom_watches h _ s _

end Program

/-! ## What a machine starts -/

namespace Machine

/-- The programs of a machine, the shell apart, do not touch its files. -/
theorem harmless_of_mem_programs {x : String × (Program.Speaker → Program)} (hx : x ∈ programs)
    (s : Program.Speaker) : Program.Harmless (x.2 s) := by
  simp only [programs, List.mem_cons, List.not_mem_nil, or_false] at hx
  rcases hx with rfl | rfl | rfl | rfl | rfl | rfl | rfl | rfl | rfl | rfl
  · exact fun _ _ _ hp => hp
  · exact fun _ _ _ hp => hp
  · exact Program.echo_harmless s
  · exact Program.formatIn_harmless _ s
  · exact Program.cat_harmless s
  · exact Program.condition_harmless s
  · exact Program.bracketed_harmless s
  · exact Program.count_harmless s
  · exact Program.replace_harmless s
  · exact Program.select_harmless s

/-- Whatever stands at a path, starting it touches no files when it is no shell. -/
theorem launch_watches {p : Process} {t : FileTree} (h : p.Watches t) {path : Text}
    (hpath : t.node? path ≠ .ok (.program shellName.toList)) (depth : Nat) (words : List Text) :
    (launch depth path words p).1.Watches t := by
  cases depth with
  | zero => exact h
  | succ depth =>
    rw [launch]
    split
    · exact h
    · exact h
    · next file hnode =>
      have hname : String.ofList file ≠ shellName := by
        rintro hfile
        rw [h.tree_eq] at hnode
        exact hpath (by rw [hnode, ← hfile, String.toList_ofList])
      extract_lets called run
      split_ifs
      · exact h
      · split
        · next program hprogram =>
          obtain ⟨before, behind, hsplit, -⟩ := List.lookup_eq_some_iff.mp hprogram
          have hmem : (called, program) ∈ programs := by rw [hsplit]; simp
          exact harmless_of_mem_programs hmem (.ofName (words.headD [])) t words.tail p h
        · exact h
    · exact h

end Machine

end Fanout
