import Fanout.Glob.Walk
import Fanout.Proofs.Patterns
import Fanout.Proofs.Walks

/-!
# What a search comes to

A search matches the patterns of a row one after another, a name at a time. `Leads` says how a row
of patterns leads from one spot to another; every path that is found is one that the patterns lead
to from where the search starts.

* `FileTree.Named`: the names in a tree are names.
* `Next`: one name further; `Leads`: a row of patterns further.
* `leads_of_hit`: what is found is led to.
* `reached_of_leads`: a row of patterns adds at least as many steps as it has patterns that only
  match what counts.
-/

namespace Fanout

/-- The text can be the name of an entry. -/
def Path.IsName (n : Text) : Prop := n ≠ [] ∧ n ≠ ['.'] ∧ n ≠ ['.', '.'] ∧ '/' ∉ n

/-- Everything in the tree has a name. -/
def FileTree.Named (t : FileTree) : Prop := ∀ x ∈ t.entries, ∀ n ∈ x.1, Path.IsName n

theorem FileTree.Named.of_list {t : FileTree} (ht : t.Named) {p : Text} {names : List Text}
    (h : t.list p = .ok names) {n : Text} (hn : n ∈ names) : Path.IsName n := by
  unfold FileTree.list at h
  cases hl : t.resolve p true with
  | error f => simp [hl, bind, Except.bind] at h
  | ok l =>
    simp only [hl, bind, Except.bind] at h
    split_ifs at h
    obtain rfl := Except.ok.inj h
    rw [FileTree.namesAt, List.mem_eraseDups, List.mem_filterMap] at hn
    obtain ⟨⟨m, e⟩, hmem, hlast⟩ := hn
    simp only at hlast
    split_ifs at hlast
    exact ht _ hmem n (List.mem_of_getLast? hlast)

namespace Path

theorem IsName.kept {n : Text} (h : IsName n) : kept (pieces n) = [n] := by
  obtain ⟨hempty, hdot, -, hslash⟩ := h
  rw [pieces, Text.splitOn_of_not_mem hslash]
  simp [Path.kept, isVoid, hempty, hdot]

/-- A piece comes behind the pieces of the path that it is put behind. -/
theorem exists_pieces_child (p name : Text) :
    ∃ ps, pieces (child p name) = ps ++ pieces name ∧ kept ps = kept (pieces p) := by
  unfold child
  split_ifs with hend
  · rcases Bool.or_eq_true_iff.mp hend with hempty | hslash
    · obtain rfl : p = [] := by simpa using hempty
      exact ⟨[], rfl, by simp [kept, pieces, Text.splitOn, isVoid]⟩
    · obtain ⟨e, rfl⟩ := List.getLast?_eq_some_iff.mp (of_decide_eq_true hslash)
      refine ⟨pieces e, ?_, ?_⟩
      · rw [List.append_assoc, List.singleton_append, pieces, Text.splitOn_append_sep]
        rfl
      · rw [kept_pieces_append]
        simp [kept, pieces, Text.splitOn, isVoid]
  · exact ⟨pieces p, Text.splitOn_append_sep '/' p name, rfl⟩

/-- A lone dot has no steps behind it. -/
theorem body_of_isCurrent {p : Text} (h : isCurrent p = true) : body p = [] := by
  have hcomponents : opening p ++ body p = [.current] := of_decide_eq_true h
  rcases opening_cases p with hopening | ⟨c, hopening, -⟩
  · rw [hopening, List.nil_append] at hcomponents
    exact absurd (.inr rfl) (not_opening_of_mem_body (p := p) (by rw [hcomponents]; simp))
  · rw [hopening] at hcomponents
    exact (List.cons.inj hcomponents).2

end Path

namespace Glob

open Fanout.Path (kept pieces EndsVoid)

/-! ## Names -/

theorem Spot.exists_pieces_entryPath (s : Spot) (name : Text) :
    ∃ ps, pieces (s.entryPath name) = ps ++ pieces name ∧ kept ps = kept (pieces s.path) := by
  unfold Spot.entryPath
  split_ifs with hcurrent
  · have hnone := Path.body_of_isCurrent hcurrent
    rw [Path.body_eq, List.map_eq_nil_iff] at hnone
    exact ⟨[], rfl, hnone.symm⟩
  · exact Path.exists_pieces_child s.path name

/-- The path of an entry ends with its name. -/
theorem Spot.fileName?_entryPath (s : Spot) {name : Text} (h : Path.IsName name) :
    Path.fileName? (s.entryPath name) = some name := by
  obtain ⟨ps, hpieces, -⟩ := s.exists_pieces_entryPath name
  have hlast : (Path.components (s.entryPath name)).getLast? = some (.name name) := by
    rw [Path.components, Path.body_eq, hpieces, Path.kept_append, h.kept, List.map_append,
      ← List.append_assoc, List.map_singleton, List.getLast?_concat, Path.step, if_neg h.2.2.1]
  rw [Path.fileName?, hlast]

/-- One name further: it is looked up, or is that of an entry, or is a dot or two that the pattern
does not spell. -/
inductive Next (t : FileTree) (p : Pattern) (s : Spot) (name : Text) : Spot → Prop
  | lookedUp : Next t p s name (Spot.at t (s.entryPath name))
  | dotted (wild : p.literal? = none) (dots : isDots name = true) :
      Next t p s name (Spot.at t (Path.child s.path name))
  | entry : Next t p s name ⟨s.entryPath name, t.entryIsDir (s.entryPath name)⟩

/-- The patterns lead from one spot to another. A pattern for any number of directories leads to
everything below, to where the patterns lead from there, or is passed over with those of its sort
behind it. -/
inductive Leads (t : FileTree) : List Pattern → Spot → Spot → Prop
  | here {s : Spot} : Leads t [] s s
  | step {p : Pattern} {ps : List Pattern} {s q r : Spot} {name : Text} (next : Next t p s name q)
      (matched : p.matches name = true) (rest : Leads t ps q r) : Leads t (p :: ps) s r
  | ends {p : Pattern} {ps : List Pattern} {s q : Spot} {name : Text}
      (recursive : p.isRecursive = true) (none : ps.dropWhile Pattern.isRecursive = [])
      (next : Next t p s name q) : Leads t (p :: ps) s q
  | deeper {p : Pattern} {ps : List Pattern} {s q r : Spot} {name : Text}
      (recursive : p.isRecursive = true) (next : Next t p s name q)
      (rest : Leads t (p :: ps.dropWhile Pattern.isRecursive) q r) : Leads t (p :: ps) s r
  | passed {p : Pattern} {ps : List Pattern} {s r : Spot} (recursive : p.isRecursive = true)
      (some : ps.dropWhile Pattern.isRecursive ≠ [])
      (rest : Leads t (ps.dropWhile Pattern.isRecursive) s r) : Leads t (p :: ps) s r

section Sound

variable {t : FileTree}

/-- What is asked of the spots that an item leads to. -/
def Item.Promises (t : FileTree) (R : Spot → Prop) : Item → Prop
  | .settled q => R q
  | .pending q ps => ∃ s name, (∀ p, Next t p s name q) ∧ Path.fileName? q.path = some name ∧
      ∀ r, Leads t ps s r → R r
  | .unreadable _ => True

/-- What the next patterns lead to from a spot that the ones before have led to. -/
def onward (t : FileTree) (ps : List Pattern) (q : Spot) : List Item :=
  if ps.isEmpty then [.settled q] else agenda t ps q

/-- What the first pattern leads to: names that it matches, entries that it has yet to match, or a
directory that is not to be read. -/
theorem mem_agenda (ht : t.Named) {p : Pattern} {ps : List Pattern} {s : Spot} {item : Item}
    (h : item ∈ agenda t (p :: ps) s) :
    (∃ q name, Next t p s name q ∧ p.matches name = true ∧ item ∈ onward t ps q) ∨
      (∃ q name, (∀ p', Next t p' s name q) ∧ Path.fileName? q.path = some name ∧
        item = .pending q (p :: ps)) ∨ ∃ path, item = .unreadable path := by
  rw [agenda] at h
  cases hliteral : p.literal? with
  | some name =>
    simp only [hliteral] at h
    have honward : item ∈ onward t ps (Spot.at t (s.entryPath name)) := by
      by_cases hdots : isDots name = true
      · rw [if_pos hdots] at h
        by_cases hdir : s.isDir = true
        · rwa [if_pos hdir] at h
        · rw [if_neg hdir] at h
          exact absurd h List.not_mem_nil
      · rw [if_neg hdots] at h
        by_cases hnode : t.hasNode (Spot.at t (s.entryPath name)).path = true
        · rwa [if_pos hnode] at h
        · rw [if_neg hnode] at h
          exact absurd h List.not_mem_nil
    exact .inl ⟨_, name, .lookedUp, ((spells_of_literal hliteral).matches_iff name).mpr rfl, honward⟩
  | none =>
    simp only [hliteral] at h
    by_cases hdir : s.isDir = true
    · rw [if_neg (by simpa using hdir)] at h
      cases hnames : t.list s.path with
      | error f =>
        simp only [hnames] at h
        exact .inr (.inr ⟨_, List.mem_singleton.mp h⟩)
      | ok names =>
        simp only [hnames] at h
        rcases List.mem_append.mp h with hdots | hentry
        · obtain ⟨d, hd, hitem⟩ := List.mem_flatMap.mp hdots
          have hmatched : p.matches d = true :=
            (Bool.and_eq_true_iff.mp (List.mem_filter.mp hd).2).2
          have hdots : isDots d = true := by
            have hmem := (List.mem_filter.mp hd).1
            simp only [List.mem_cons, List.not_mem_nil, or_false] at hmem
            obtain rfl | rfl := hmem <;> rfl
          exact .inl ⟨_, d, .dotted hliteral hdots, hmatched, hitem⟩
        · obtain ⟨n, hn, rfl⟩ := List.mem_map.mp hentry
          have hname : Path.IsName n := ht.of_list hnames ((List.mergeSort_perm _ _).subset hn)
          exact .inr (.inl ⟨_, n, fun _ => .entry, s.fileName?_entryPath hname, rfl⟩)
    · rw [if_pos (by simpa using hdir)] at h
      exact absurd h List.not_mem_nil

theorem promises_of_agenda (ht : t.Named) {R : Spot → Prop} {ps : List Pattern} {s : Spot}
    (h : ∀ r, Leads t ps s r → R r) : ∀ item ∈ agenda t ps s, item.Promises t R := by
  induction ps generalizing s with
  | nil => exact fun item hitem => absurd hitem List.not_mem_nil
  | cons p ps ih =>
    intro item hmem
    rcases mem_agenda ht hmem with
      ⟨q, name, hnext, hmatched, hitem⟩ | ⟨q, name, hnext, hname, rfl⟩ | ⟨path, rfl⟩
    · unfold onward at hitem
      split_ifs at hitem with hps
      · obtain rfl : ps = [] := by simpa using hps
        obtain rfl := List.mem_singleton.mp hitem
        exact h q (.step hnext hmatched .here)
      · exact ih (fun r hr => h r (.step hnext hmatched hr)) item hitem
    · exact ⟨s, name, hnext, hname, h⟩
    · exact True.intro

/-- What is found below a spot. -/
def foundBelow (t : FileTree) (dirsOnly : Bool) (depth : Nat) (ps : List Pattern) (s : Spot) :
    List Finding := (agenda t ps s).flatMap (visit t dirsOnly depth)

/-- A path that is found has the name at its end matched, and is the spot itself or below it; or it
is found by a pattern for any number of directories, there or below. -/
theorem hit_of_pending {dirsOnly : Bool} {depth : Nat} {s : Spot} {name path : Text} {p : Pattern}
    {ps : List Pattern} (hname : Path.fileName? s.path = some name)
    (h : .hit path ∈ visit t dirsOnly (depth + 1) (.pending s (p :: ps))) :
    (∃ p' ps', (p.isRecursive = false ∧ p' :: ps' = p :: ps ∨
          p.isRecursive = true ∧ ps.dropWhile Pattern.isRecursive = p' :: ps') ∧
        p'.matches name = true ∧
        (ps' = [] ∧ path = s.path ∧ (dirsOnly = true → s.isDir = true) ∨
          .hit path ∈ foundBelow t dirsOnly depth ps' s)) ∨
      p.isRecursive = true ∧ s.isDir = true ∧
        (ps.dropWhile Pattern.isRecursive = [] ∧ path = s.path ∨
          .hit path ∈ foundBelow t dirsOnly depth (p :: ps.dropWhile Pattern.isRecursive) s) := by
  have hbyName {p' : Pattern} {ps' : List Pattern}
      (h : .hit path ∈ if !p'.matches name then []
        else if !ps'.isEmpty then foundBelow t dirsOnly depth ps' s
        else if dirsOnly && !s.isDir then [] else [.hit s.path]) :
      p'.matches name = true ∧ (ps' = [] ∧ path = s.path ∧ (dirsOnly = true → s.isDir = true) ∨
        .hit path ∈ foundBelow t dirsOnly depth ps' s) := by
    split_ifs at h with hmatches hempty hdir
    · exact absurd h List.not_mem_nil
    · exact ⟨by simpa using hmatches, .inr h⟩
    · exact absurd h List.not_mem_nil
    · exact ⟨by simpa using hmatches, .inl ⟨by simpa using hempty,
        Finding.hit.inj (List.mem_singleton.mp h), by simpa using hdir⟩⟩
  rw [visit] at h
  simp only [hname] at h
  by_cases hrecursive : p.isRecursive = true
  · rw [if_neg (by simpa using hrecursive)] at h
    cases hrest : ps.dropWhile Pattern.isRecursive with
    | nil =>
      rw [hrest, List.isEmpty_nil, if_pos rfl] at h
      by_cases hdir : s.isDir = true
      · rw [if_pos hdir] at h
        refine .inr ⟨hrecursive, hdir, ?_⟩
        rcases List.mem_cons.mp h with h | h
        · exact .inl ⟨rfl, Finding.hit.inj h⟩
        · exact .inr h
      · rw [if_neg hdir] at h
        exact absurd h List.not_mem_nil
    | cons p' ps' =>
      rw [hrest, List.isEmpty_cons, if_neg (by decide)] at h
      rcases List.mem_append.mp h with h | h
      · exact .inl ⟨p', ps', .inr ⟨hrecursive, rfl⟩, hbyName h⟩
      · by_cases hdir : s.isDir = true
        · rw [if_pos hdir] at h
          exact .inr ⟨hrecursive, hdir, .inr h⟩
        · rw [if_neg hdir] at h
          exact absurd h List.not_mem_nil
  · rw [if_pos (by simpa using hrecursive)] at h
    exact .inl ⟨p, ps, .inl ⟨by simpa using hrecursive, rfl⟩, hbyName h⟩

theorem exists_of_hit (ht : t.Named) {R : Spot → Prop} {dirsOnly : Bool} {depth : Nat} {item : Item}
    (hitem : item.Promises t R) {path : Text} (h : .hit path ∈ visit t dirsOnly depth item) :
    ∃ q, R q ∧ q.path = path ∧ (dirsOnly = true → q.isDir = true) := by
  induction depth generalizing item with
  | zero => exact absurd h (by simp [visit])
  | succ depth ih =>
    have hbelow {ps : List Pattern} {q : Spot} (hq : ∀ r, Leads t ps q r → R r)
        (h : .hit path ∈ foundBelow t dirsOnly depth ps q) :
        ∃ q, R q ∧ q.path = path ∧ (dirsOnly = true → q.isDir = true) := by
      obtain ⟨item, hmem, h⟩ := List.mem_flatMap.mp h
      exact ih (promises_of_agenda ht hq item hmem) h
    cases item with
    | unreadable p => exact absurd h (by simp [visit])
    | settled q =>
      simp only [visit] at h
      split_ifs at h with hdir
      · exact absurd h List.not_mem_nil
      · obtain rfl := Finding.hit.inj (List.mem_singleton.mp h)
        exact ⟨q, hitem, rfl, by simpa using hdir⟩
    | pending q ps =>
      obtain ⟨s, name, hnext, hname, hR⟩ := hitem
      cases ps with
      | nil => exact absurd h (by simp [visit])
      | cons p ps =>
        rcases hit_of_pending hname h with
          ⟨p', ps', hcases, hmatched, hfound⟩ | ⟨hrecursive, hdir, hfound⟩
        · -- the pattern that the name is matched by leads as far as the whole row
          have hstep {r : Spot} (hr : Leads t ps' q r) : R r := by
            have hlast : Leads t (p' :: ps') s r := .step (hnext p') hmatched hr
            rcases hcases with ⟨-, hsame⟩ | ⟨hrecursive, hdrop⟩
            · rw [hsame] at hlast
              exact hR r hlast
            · exact hR r (.passed hrecursive (by rw [hdrop]; simp) (by rwa [hdrop]))
          rcases hfound with ⟨rfl, rfl, hdir⟩ | hfound
          · exact ⟨q, hstep .here, rfl, hdir⟩
          · exact hbelow (fun r hr => hstep hr) hfound
        · rcases hfound with ⟨hnone, rfl⟩ | hfound
          · exact ⟨q, hR q (.ends hrecursive hnone (hnext p)), rfl, fun _ => hdir⟩
          · exact hbelow (fun r hr => hR r (.deeper hrecursive (hnext p) hr)) hfound

/-- What is found is led to by the patterns, from where the search starts. -/
theorem leads_of_hit (ht : t.Named) {pattern : Text} {findings : List Finding}
    (h : search t pattern = .ok findings) {path : Text} (hpath : .hit path ∈ findings) :
    ∃ ps q, (componentTexts pattern).mapM Pattern.ofText = .ok ps ∧
      Leads t ps (Spot.at t (origin pattern)) q ∧ q.path = path ∧
      (pattern.getLast? = some '/' → q.isDir = true) := by
  unfold search at h
  cases hwhole : Pattern.ofText pattern with
  | error f => simp [hwhole, bind, Except.bind] at h
  | ok whole =>
  cases hps : (componentTexts pattern).mapM Pattern.ofText with
  | error f => simp [hwhole, hps, bind, Except.bind] at h
  | ok ps =>
  simp only [hwhole, hps, bind, Except.bind] at h
  obtain rfl := Except.ok.inj h
  obtain ⟨item, hitem, hpath⟩ := List.mem_flatMap.mp hpath
  obtain ⟨q, hleads, rfl, hdir⟩ :=
    exists_of_hit ht (promises_of_agenda ht (fun r hr => hr) item hitem) hpath
  exact ⟨ps, q, rfl, hleads, rfl, fun hslash => hdir (by simpa using hslash)⟩

/-! ## How far patterns lead -/

/-- How many pieces of the path count. -/
def stepCount (p : Text) : Nat := (kept (pieces p)).length

section Reach

variable {p : Pattern} {s q : Spot} {name : Text}

theorem Next.exists_pieces (h : Next t p s name q) :
    ∃ ps, pieces q.path = ps ++ pieces name ∧ kept ps = kept (pieces s.path) := by
  cases h with
  | lookedUp => exact s.exists_pieces_entryPath name
  | dotted => exact Path.exists_pieces_child s.path name
  | entry => exact s.exists_pieces_entryPath name

theorem Next.stepCount_eq (h : Next t p s name q) :
    stepCount q.path = stepCount s.path + stepCount name := by
  obtain ⟨ps, hpieces, hkept⟩ := h.exists_pieces
  rw [stepCount, hpieces, Path.kept_append, List.length_append, hkept, stepCount, stepCount]

/-- A name that counts for nothing leaves a path that ends so. -/
theorem Next.endsVoid (h : Next t p s name q) (hname : stepCount name = 0) :
    EndsVoid (pieces q.path) := by
  obtain ⟨ps, hpieces, -⟩ := h.exists_pieces
  rw [hpieces]
  refine (Path.endsVoid_append (Text.splitOn_ne_nil '/' name)).mpr ?_
  exact Path.endsVoid_of_kept (List.length_eq_zero_iff.mp hname) (Text.splitOn_ne_nil '/' name)

/-- What is said to be a directory is one. -/
theorem Next.isDir (h : Next t p s name q) (hdir : q.isDir = true) : t.isDir q.path = true := by
  cases h with
  | lookedUp | dotted => exact hdir
  | entry => exact FileTree.isDir_of_entryIsDir hdir

theorem isDir_of_leads {ps : List Pattern} (h : Leads t ps s q)
    (hs : s.isDir = true → t.isDir s.path = true) : q.isDir = true → t.isDir q.path = true := by
  induction h with
  | here => exact hs
  | step next _ _ ih | deeper _ next _ ih => exact ih next.isDir
  | ends _ _ next => exact next.isDir
  | passed _ _ _ ih => exact ih hs

end Reach

/-- The pattern stands for one name, and matches only names that count. -/
def Pattern.Solid (p : Pattern) : Prop :=
  p.isRecursive = false ∧ ∀ name, p.matches name = true → 0 < stepCount name

/-- So many of the patterns in front of the last one are solid. -/
inductive Adds : Nat → List Pattern → Prop
  | last (p : Pattern) : Adds 0 [p]
  | solid {n : Nat} {p : Pattern} {ps : List Pattern} (hp : p.Solid) (rest : Adds n ps) :
      Adds (n + 1) (p :: ps)
  | other {n : Nat} (p : Pattern) {ps : List Pattern} (rest : Adds n ps) : Adds n (p :: ps)

theorem Adds.ne_nil {n : Nat} {ps : List Pattern} (h : Adds n ps) : ps ≠ [] := by
  cases h <;> simp

/-- Patterns for any number of directories are none of the solid ones. -/
theorem Adds.dropWhile {n : Nat} {ps : List Pattern} (h : Adds n ps) :
    ps.dropWhile Pattern.isRecursive = [] ∧ n = 0 ∨ Adds n (ps.dropWhile Pattern.isRecursive) := by
  induction h with
  | last p =>
    by_cases hp : p.isRecursive = true
    · exact .inl ⟨by simp [hp], rfl⟩
    · rw [List.dropWhile_cons_of_neg hp]
      exact .inr (.last p)
  | solid hp rest ih =>
    rw [List.dropWhile_cons_of_neg (by simp [hp.1])]
    exact .inr (.solid hp rest)
  | @other n p ps rest ih =>
    by_cases hp : p.isRecursive = true
    · rw [List.dropWhile_cons_of_pos hp]
      exact ih
    · rw [List.dropWhile_cons_of_neg hp]
      exact .inr (.other p rest)

/-- A row of patterns adds a step for each solid one, and one more unless the path ends with a piece
that counts for nothing. -/
theorem stepCount_of_leads {n : Nat} {ps : List Pattern} {s r : Spot} (h : Leads t ps s r)
    (hadds : Adds n ps) : stepCount s.path + n ≤ stepCount r.path ∧
      (EndsVoid (pieces r.path) ∨ stepCount s.path + n < stepCount r.path) := by
  -- one name, when nothing is left behind it
  have hname {p : Pattern} {s q : Spot} {name : Text} (next : Next t p s name q) :
      stepCount s.path + 0 ≤ stepCount q.path ∧
        (EndsVoid (pieces q.path) ∨ stepCount s.path + 0 < stepCount q.path) := by
    have hcount := next.stepCount_eq
    refine ⟨by omega, ?_⟩
    by_cases hzero : stepCount name = 0
    · exact .inl (next.endsVoid hzero)
    · exact .inr (by omega)
  have hdrop {p : Pattern} {ps : List Pattern} {n : Nat} (hp : p.isRecursive = true)
      (hadds : Adds n (p :: ps)) : ps.dropWhile Pattern.isRecursive = [] ∧ n = 0 ∨
        Adds n (ps.dropWhile Pattern.isRecursive) := by
    have hwhole := hadds.dropWhile
    rwa [List.dropWhile_cons_of_pos hp] at hwhole
  induction h generalizing n with
  | here => exact absurd rfl hadds.ne_nil
  | @step p ps s q r name next matched rest ih =>
    have hcount := next.stepCount_eq
    cases hadds with
    | last =>
      cases rest
      exact hname next
    | solid hp hrest =>
      have hgrows := hp.2 name matched
      obtain ⟨hle, hend⟩ := ih hrest
      exact ⟨by omega, hend.imp_right fun hlt => by omega⟩
    | other _ hrest =>
      obtain ⟨hle, hend⟩ := ih hrest
      exact ⟨by omega, hend.imp_right fun hlt => by omega⟩
  | ends recursive none next =>
    rcases hdrop recursive hadds with ⟨-, rfl⟩ | hrest
    · exact hname next
    · exact absurd none hrest.ne_nil
  | @deeper p ps s q r name recursive next rest ih =>
    have hcount := next.stepCount_eq
    have hrest : Adds n (p :: ps.dropWhile Pattern.isRecursive) := by
      rcases hdrop recursive hadds with ⟨hnone, rfl⟩ | hrest
      · rw [hnone]
        exact .last p
      · exact .other p hrest
    obtain ⟨hle, hend⟩ := ih hrest
    exact ⟨by omega, hend.imp_right fun hlt => by omega⟩
  | passed recursive some rest ih =>
    rcases hdrop recursive hadds with ⟨hnone, -⟩ | hrest
    · exact absurd hnone some
    · exact ih hrest

/-! ## Which characters patterns lead to -/

/-- The pattern stands for one name, which has only characters of a class. -/
def Pattern.Within (A : Char → Prop) (p : Pattern) : Prop :=
  p.isRecursive = false ∧ ∀ name, p.matches name = true → ∀ c ∈ name, A c

theorem mem_child {p piece : Text} {c : Char} (h : c ∈ Path.child p piece) :
    c ∈ p ∨ c ∈ piece ∨ c = '/' := by
  unfold Path.child at h
  split_ifs at h
  · rcases List.mem_append.mp h with h | h
    · exact .inl h
    · exact .inr (.inl h)
  · rcases List.mem_append.mp h with h | h
    · exact .inl h
    · rcases List.mem_cons.mp h with h | h
      · exact .inr (.inr h)
      · exact .inr (.inl h)

theorem Next.mem {p : Pattern} {s q : Spot} {name : Text} (h : Next t p s name q) {c : Char} (hc : c ∈ q.path) :
    c ∈ s.path ∨ c ∈ name ∨ c = '/' := by
  have hentry (hc : c ∈ s.entryPath name) : c ∈ s.path ∨ c ∈ name ∨ c = '/' := by
    unfold Spot.entryPath at hc
    split_ifs at hc
    · exact .inr (.inl hc)
    · exact mem_child hc
  cases h with
  | lookedUp | entry => exact hentry hc
  | dotted => exact mem_child hc

/-- Patterns that only match characters of a class lead from a path of them to a path of them. -/
theorem forall_mem_of_leads {A : Char → Prop} (hslash : A '/') {ps : List Pattern} {s r : Spot}
    (h : Leads t ps s r) (hps : ∀ p ∈ ps, p.Within A) (hs : ∀ c ∈ s.path, A c) :
    ∀ c ∈ r.path, A c := by
  induction h with
  | here => exact hs
  | @step p ps s q r name next matched rest ih =>
    obtain ⟨hp, hps⟩ := List.forall_mem_cons.mp hps
    have hname := hp.2 name matched
    refine ih hps fun c hc => ?_
    rcases next.mem hc with hc | hc | rfl
    · exact hs c hc
    · exact hname c hc
    · exact hslash
  | @ends p ps s q name recursive _ _ | @deeper p ps s q _ name recursive _ _ _
  | @passed p ps s r recursive _ _ _ =>
    have hp := (hps p List.mem_cons_self).1
    rw [hp] at recursive
    exact absurd recursive (by decide)

end Sound

end Glob

end Fanout
