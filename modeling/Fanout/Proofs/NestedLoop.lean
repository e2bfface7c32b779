import Fanout.Product.Odometer
import Mathlib.Algebra.BigOperators.Group.List.Basic

/-!
# Nested loops

What the commands of a generator are, said without an odometer: one loop for each group that
branches, the loop of the first group outermost. A back reference has no loop; it is bound to what
its target is bound to.

* `Generator.bindings`: the terms that the groups are bound to, once for each pass through the
  innermost loop.
* `Generator.nestedCommands`: the template rendered for each binding.
* `Odometer.remaining`: the bindings from a position of the odometer on. A step of the odometer
  takes the first of them away (`remaining_turn`).
* `answer_nestedCommands`: each call of an odometer gives the next command of the loops, and
  nothing from the last one on.
-/

namespace Fanout

namespace Generator

/-- The loops of groups, inside loops that have bound the groups before them. A back reference to
no earlier group has no pass. -/
def loop (bound : List Term) : List Group → List (List Term)
  | [] => [bound]
  | g :: gs =>
    match g.backref with
    | some n =>
      match bound[n - 1]? with
      | some t => loop (bound ++ [t]) gs
      | none => []
    | none => g.terms.flatMap fun t => loop (bound ++ [t]) gs

/-- The terms that the groups are bound to, in the order of the loops. -/
def bindings (g : Generator) : List (List Term) := loop [] g.groups

/-- What a group shows in its slot for the term it is bound to: nothing when it is hidden, and the
term quoted for the slot otherwise. An absorbed path comes first, but not in a back reference. -/
def boundText (g : Group) (t : Term) : Option Text :=
  if g.hidden then none
  else if g.absorbed && g.backref.isNone then
    some (g.externalPath.getD [] ++ quoteTerm g.quote t.node t.value)
  else some (quoteTerm g.quote t.node t.value)

/-- The template rendered for each binding. -/
def nestedCommands (g : Generator) : List Text :=
  g.bindings.map fun terms => g.template.render (List.zipWith boundText g.groups terms)

/-- The sizes of the groups that branch. -/
def branchSizes (g : Generator) : List Nat := (g.groups.filter Group.branches).map (·.terms.length)

/-- There is a group that branches and has nothing to choose from. -/
def HasEmpty (g : Generator) : Prop := ∃ x ∈ g.groups, x.branches = true ∧ x.terms = []

/-- No group without terms stands in a product that is too large for a machine word. -/
def SeesEmpty (g : Generator) : Prop := g.HasEmpty → wordProduct? 1 g.branchSizes ≠ none

instance (g : Generator) : Decidable g.HasEmpty :=
  inferInstanceAs (Decidable (∃ x ∈ g.groups, x.branches = true ∧ x.terms = []))

instance (g : Generator) : Decidable g.SeesEmpty :=
  inferInstanceAs (Decidable (_ → _))

/-! ## Generators that fit -/

theorem boundText_eq_slotText : boundText = Group.slotText := by
  funext g t
  cases hb : g.backref <;> cases ha : g.absorbed <;>
    simp [boundText, Group.slotText, Group.shownPath, Group.branches, hb, ha]

theorem nestedCommands_eq (g : Generator) :
    g.nestedCommands = g.bindings.map g.commandOf := by
  unfold nestedCommands
  rw [boundText_eq_slotText]
  rfl

/-- A back reference that passes the check names one of the groups before it. -/
theorem checkBackref_eq_ok {k : Nat} {g : Group} :
    checkBackref k g = .ok () ↔ ∀ n, g.backref = some n → 0 < n ∧ n ≤ k := by
  unfold checkBackref
  cases hb : g.backref with
  | none => simp
  | some n =>
    cases n with
    | zero => simp
    | succ m =>
      by_cases hm : k < m + 1
      · have : ¬ m + 1 ≤ k := by omega
        simp [hm, this]
      · have : m + 1 ≤ k := by omega
        simp [hm, this]

/-- Nothing is in front of the first group, so it is no back reference. -/
theorem backref_eq_none {g : Group} (h : checkBackref 0 g = .ok ()) : g.backref = none := by
  cases hn : g.backref with
  | none => rfl
  | some n =>
    obtain ⟨hpos, hle⟩ := checkBackref_eq_ok.mp h n hn
    omega

theorem checkBackrefs_cons {k : Nat} {g : Group} {gs : List Group} :
    checkBackrefs k (g :: gs) = .ok () ↔
      checkBackref k g = .ok () ∧ checkBackrefs (k + 1) gs = .ok () := by
  rw [checkBackrefs]
  split
  · next h => simp [h]
  · next h => simp [h]

/-- The check passes when no group refers astray. -/
theorem checkBackrefs_eq_ok {k : Nat} {gs : List Group} :
    checkBackrefs k gs = .ok () ↔
      ∀ i n, (gs.map Group.backref)[i]? = some (some n) → 0 < n ∧ n ≤ k + i := by
  induction gs generalizing k with
  | nil => simp [checkBackrefs]
  | cons g gs ih =>
    rw [checkBackrefs_cons, checkBackref_eq_ok, ih]
    constructor
    · rintro ⟨hg, hgs⟩ i n hn
      cases i with
      | zero => simpa using hg n (by simpa using hn)
      | succ i =>
        have hlt := hgs i n (by simpa using hn)
        omega
    · intro h
      refine ⟨fun n hn => by simpa using h 0 n (by simp [hn]), fun i n hn => ?_⟩
      have hlt := h (i + 1) n (by simpa using hn)
      omega

theorem ofGroups_eq_ok {t : Template} {gs : List Group} {g : Generator} :
    ofGroups t gs = .ok g ↔
      t.slotCount = gs.length ∧ checkBackrefs 0 gs = .ok () ∧ g = ⟨t, gs⟩ := by
  unfold ofGroups
  by_cases h : t.slotCount = gs.length
  · rw [if_neg (by simpa using h)]
    cases hc : checkBackrefs 0 gs with
    | error f => simp [h]
    | ok _ => simp [h, eq_comm]
  · rw [if_pos h]
    simp [h]

/-- The check opens up to the term that a back reference finds among the bound ones. -/
theorem exists_bound {k : Nat} {g : Group} {n : Nat} {bound : List Term}
    (h : checkBackref k g = .ok ()) (hg : g.backref = some n) (hk : bound.length = k) :
    ∃ t, bound[n - 1]? = some t := by
  obtain ⟨hpos, hle⟩ := checkBackref_eq_ok.mp h n hg
  have hlt : n - 1 < bound.length := by omega
  exact ⟨bound[n - 1], List.getElem?_eq_getElem hlt⟩

/-! ## How many passes there are -/

/-- The loops have as many passes as their sizes multiply to. -/
theorem length_loop {bound : List Term} {gs : List Group}
    (h : checkBackrefs bound.length gs = .ok ()) :
    (loop bound gs).length = (gs.map Group.width).prod := by
  induction gs generalizing bound with
  | nil => rfl
  | cons g gs ih =>
    obtain ⟨hg, hgs⟩ := checkBackrefs_cons.mp h
    have hnext (t : Term) : (loop (bound ++ [t]) gs).length = (gs.map Group.width).prod :=
      ih (by simpa using hgs)
    cases hb : g.backref with
    | some n =>
      obtain ⟨t, ht⟩ := exists_bound hg hb rfl
      simp [loop, hb, ht, hnext, Group.width, Group.branches]
    | none =>
      have hsum (ts : List Term) :
          (ts.flatMap fun t => loop (bound ++ [t]) gs).length
            = ts.length * (gs.map Group.width).prod := by
        induction ts with
        | nil => simp
        | cons t ts iht =>
          rw [List.flatMap_cons, List.length_append, hnext, iht, List.length_cons, Nat.succ_mul,
            Nat.add_comm]
      simp [loop, hb, hsum, Group.width, Group.branches]

theorem size_eq_prod (g : Generator) : g.size = (g.groups.map Group.width).prod :=
  List.prod_eq_foldl_nat.symm

theorem length_bindings {g : Generator} (h : checkBackrefs 0 g.groups = .ok ()) :
    g.bindings.length = g.size := by
  have hl : (loop [] g.groups).length = _ := length_loop h
  rw [bindings, hl, size_eq_prod]

/-- The product of the sizes of the groups that branch is the product of all widths. -/
theorem prod_branchSizes (gs : List Group) :
    ((gs.filter Group.branches).map (·.terms.length)).prod = (gs.map Group.width).prod := by
  induction gs with
  | nil => rfl
  | cons g gs ih =>
    cases hb : g.branches <;> simp [hb, Group.width, ih]

theorem wordProduct?_eq_some {n m : Nat} {ws : List Nat} (h : wordProduct? n ws = some m) :
    m = n * ws.prod := by
  induction ws generalizing n with
  | nil =>
    rw [wordProduct?, Option.some.injEq] at h
    simp [h]
  | cons w ws ih =>
    rw [wordProduct?] at h
    split at h
    · exact absurd h (by simp)
    · rw [ih h, List.prod_cons, Nat.mul_assoc]

theorem length_nestedCommands {g : Generator} (h : checkBackrefs 0 g.groups = .ok ()) :
    g.nestedCommands.length = g.size := by
  rw [nestedCommands_eq, List.length_map, length_bindings h]

/-! ## Groups without terms -/

theorem width_eq_zero {x : Group} : x.width = 0 ↔ x.branches = true ∧ x.terms = [] := by
  unfold Group.width
  cases x.branches <;> simp

theorem size_eq_zero {g : Generator} : g.size = 0 ↔ g.HasEmpty := by
  rw [size_eq_prod, List.prod_eq_zero_iff_exists_zero_nat]
  constructor
  · rintro ⟨n, hn, h0⟩
    obtain ⟨x, hx, rfl⟩ := List.mem_map.mp hn
    exact ⟨x, hx, width_eq_zero.mp h0⟩
  · rintro ⟨x, hx, h⟩
    exact ⟨x.width, List.mem_map_of_mem hx, width_eq_zero.mpr h⟩

/-- Whether there are commands is seen on the machine word for their number. -/
theorem isEmpty_iff {g : Generator} (h : g.SeesEmpty) : g.isEmpty = true ↔ g.HasEmpty := by
  have hsize : g.branchSizes.prod = g.size := by
    rw [branchSizes, prod_branchSizes, size_eq_prod]
  cases hp : wordProduct? 1 g.branchSizes with
  | some m =>
    have hm : m = g.size := by rw [wordProduct?_eq_some hp, Nat.one_mul, hsize]
    have hcap : g.cappedSize = m := congrArg (Option.getD · Text.maxWord) hp
    rw [isEmpty, decide_eq_true_eq, hcap, hm, size_eq_zero]
  | none =>
    have hcap : g.cappedSize = Text.maxWord := congrArg (Option.getD · Text.maxWord) hp
    have hpos : Text.maxWord ≠ 0 := by decide
    constructor
    · intro he
      rw [isEmpty, decide_eq_true_eq, hcap] at he
      exact absurd he hpos
    · intro he
      exact absurd hp (h he)

theorem bindings_eq_nil {g : Generator} (hc : checkBackrefs 0 g.groups = .ok ())
    (h : g.HasEmpty) : g.bindings = [] := by
  rw [← List.length_eq_zero_iff, length_bindings hc]
  exact size_eq_zero.mpr h

end Generator

/-! ## The odometer -/

namespace Odometer

open Generator

/-- The bindings from a position of the wheels on, for groups behind those that are bound. -/
def remaining (bound : List Term) : List Group → List (List Term) → List (List Term)
  | g :: gs, w :: ws =>
    match g.backref with
    | some n => remaining (bound ++ [bound[n - 1]?.getD default]) gs ws
    | none =>
      remaining (bound ++ [w.headD default]) gs ws
        ++ w.tail.flatMap fun t => loop (bound ++ [t]) gs
  | _, _ => [bound]

/-- The wheels fit their groups: those that turn stand on a term and can start over. -/
def Fits : List Group → List (List Term) → Prop
  | [], [] => True
  | g :: gs, w :: ws => (g.branches = true → w ≠ [] ∧ g.terms ≠ []) ∧ Fits gs ws
  | _, _ => False

theorem fits_terms {gs : List Group} (h : ∀ g ∈ gs, g.branches = true → g.terms ≠ []) :
    Fits gs (gs.map Group.terms) := by
  induction gs with
  | nil => exact True.intro
  | cons g gs ih =>
    obtain ⟨hg, hgs⟩ := List.forall_mem_cons.mp h
    exact ⟨fun hb => ⟨hg hb, hg hb⟩, ih hgs⟩

theorem fits_turn {gs : List Group} {ws : List (List Term)} (h : Fits gs ws) :
    Fits gs (turn gs ws).1 := by
  induction gs generalizing ws with
  | nil => cases ws <;> simp_all [turn, Fits]
  | cons g gs ih =>
    cases ws with
    | nil => exact absurd h (by simp [Fits])
    | cons w ws =>
      obtain ⟨hw, hgs⟩ := h
      have hrest := ih hgs
      simp only [turn]
      split
      · exact ⟨hw, hrest⟩
      · split
        · exact ⟨fun hb => ⟨(hw hb).2, (hw hb).2⟩, hrest⟩
        · next ht => exact ⟨fun hb => ⟨by simpa using ht, (hw hb).2⟩, hrest⟩

/-- When all wheels start over, what remains is everything. -/
theorem remaining_restarted {bound : List Term} {gs : List Group} {ws : List (List Term)}
    (hc : checkBackrefs bound.length gs = .ok ()) (hf : Fits gs ws)
    (hr : (turn gs ws).2 = true) : remaining bound gs (turn gs ws).1 = loop bound gs := by
  induction gs generalizing bound ws with
  | nil => cases ws <;> rfl
  | cons g gs ih =>
    cases ws with
    | nil => exact absurd hf (by simp [Fits])
    | cons w ws =>
      obtain ⟨hg, hgs⟩ := checkBackrefs_cons.mp hc
      obtain ⟨hw, hrest⟩ := hf
      have inner (t : Term) (h : (turn gs ws).2 = true) :
          remaining (bound ++ [t]) gs (turn gs ws).1 = loop (bound ++ [t]) gs :=
        ih (by simpa using hgs) hrest h
      cases hb : g.backref with
      | some n =>
        obtain ⟨t, ht⟩ := exists_bound hg hb rfl
        have hr' : (turn gs ws).2 = true := by simpa [turn, Group.branches, hb] using hr
        simp [turn, Group.branches, hb, remaining, loop, ht, inner _ hr']
      | none =>
        obtain ⟨hw, hne⟩ := hw (by simp [Group.branches, hb])
        cases hrr : (turn gs ws).2 with
        | false => simp [turn, hrr] at hr
        | true =>
          cases ht : w.tail with
          | cons a rest => simp [turn, hrr, Group.branches, hb, ht] at hr
          | nil =>
            obtain ⟨a, rest, hterms⟩ := List.exists_cons_of_ne_nil hne
            simp [turn, hrr, Group.branches, hb, ht, remaining, loop, hterms, inner]

/-- One step of the odometer takes the first binding away, and ends behind the last one. -/
theorem remaining_turn {bound : List Term} {gs : List Group} {ws : List (List Term)}
    (hc : checkBackrefs bound.length gs = .ok ()) (hf : Fits gs ws) :
    remaining bound gs ws =
      take bound gs ws :: if (turn gs ws).2 then [] else remaining bound gs (turn gs ws).1 := by
  induction gs generalizing bound ws with
  | nil => cases ws <;> rfl
  | cons g gs ih =>
    cases ws with
    | nil => exact absurd hf (by simp [Fits])
    | cons w ws =>
      obtain ⟨hg, hgs⟩ := checkBackrefs_cons.mp hc
      obtain ⟨hw, hrest⟩ := hf
      have hgs' (t : Term) : checkBackrefs (bound ++ [t]).length gs = .ok () := by simpa using hgs
      have inner (t : Term) := ih (hgs' t) hrest
      cases hb : g.backref with
      | some n =>
        have hbr : g.branches = false := by simp [Group.branches, hb]
        simp [turn, hbr, remaining, take, hb, inner]
      | none =>
        have hbr : g.branches = true := by simp [Group.branches, hb]
        cases hrr : (turn gs ws).2 with
        | false => simp [turn, hrr, remaining, take, hb, inner]
        | true =>
          -- The inner wheels start over, so this one moves to its next term, if it has one.
          have hrem (t : Term) := remaining_restarted (hgs' t) hrest hrr
          cases ht : w.tail with
          | nil => simp [turn, hrr, hbr, remaining, take, hb, inner, ht]
          | cons a rest => simp [turn, hrr, hbr, remaining, take, hb, inner, ht, hrem]

/-- The first position has all bindings ahead. -/
theorem remaining_terms {bound : List Term} {gs : List Group}
    (hc : checkBackrefs bound.length gs = .ok ())
    (hne : ∀ g ∈ gs, g.branches = true → g.terms ≠ []) :
    remaining bound gs (gs.map Group.terms) = loop bound gs := by
  induction gs generalizing bound with
  | nil => rfl
  | cons g gs ih =>
    obtain ⟨hg, hgs⟩ := checkBackrefs_cons.mp hc
    obtain ⟨hne, hnes⟩ := List.forall_mem_cons.mp hne
    have inner (t : Term) :
        remaining (bound ++ [t]) gs (gs.map Group.terms) = loop (bound ++ [t]) gs :=
      ih (by simpa using hgs) hnes
    cases hb : g.backref with
    | some n =>
      obtain ⟨t, ht⟩ := exists_bound hg hb rfl
      simp [remaining, loop, hb, ht, inner]
    | none =>
      obtain ⟨a, rest, hterms⟩ := List.exists_cons_of_ne_nil (hne (by simp [Group.branches, hb]))
      simp [remaining, loop, hb, hterms, inner]

/-! ## Calls of the odometer -/

/-- The answer to call number `n` from a position on, counted from zero. -/
def answer (g : Generator) : Nat → Odometer → Option Text
  | 0, o => (o.next? g).map Prod.fst
  | n + 1, o =>
    match o.next? g with
    | some (_, ahead) => answer g n ahead
    | none => answer g n o

/-- The commands from a position on. -/
def ahead (g : Generator) (o : Odometer) : List Text :=
  if o.done then [] else (remaining [] g.groups o.wheels).map g.commandOf

theorem ahead_of_done {g : Generator} {o : Odometer} (h : o.done = true) : o.ahead g = [] :=
  if_pos h

theorem ahead_of_not_done {g : Generator} {o : Odometer} (h : o.done = false) :
    o.ahead g = (remaining [] g.groups o.wheels).map g.commandOf :=
  if_neg (by simp [h])

section Run

variable {g : Generator} {o : Odometer}

/-- A call gives the first command ahead, and goes on with the others. -/
theorem ahead_eq_cons (hc : checkBackrefs 0 g.groups = .ok ()) (hf : Fits g.groups o.wheels)
    (hd : o.done = false) : o.ahead g = g.command o.wheels :: (o.advance g).ahead g := by
  have hstep := @remaining_turn [] g.groups o.wheels hc hf
  rw [ahead_of_not_done hd, hstep, List.map_cons]
  cases hr : (turn g.groups o.wheels).2 with
  | true =>
    have hd' : (o.advance g).done = true := hr
    rw [ahead_of_done hd', if_pos rfl]
    rfl
  | false =>
    have hd' : (o.advance g).done = false := hr
    rw [ahead_of_not_done hd', if_neg Bool.false_ne_true]
    rfl

/-- Each call gives the next command ahead, and every call behind the last one gives nothing. -/
theorem answer_eq_ahead (hc : checkBackrefs 0 g.groups = .ok ()) (hf : Fits g.groups o.wheels)
    (n : Nat) : answer g n o = (o.ahead g)[n]? := by
  induction n generalizing o with
  | zero =>
    cases hd : o.done with
    | true => simp [answer, next?, hd, ahead_of_done hd]
    | false => simp [answer, next?, hd, ahead_eq_cons hc hf hd]
  | succ n ih =>
    cases hd : o.done with
    | true =>
      have hn := ih hf
      simpa [answer, next?, hd, ahead_of_done hd] using hn
    | false =>
      have hn := ih (o := o.advance g) (fits_turn hf)
      simpa [answer, next?, hd, ahead_eq_cons hc hf hd] using hn

/-- Collecting takes commands from the front of those ahead. -/
theorem collect_eq_take (hc : checkBackrefs 0 g.groups = .ok ()) (hf : Fits g.groups o.wheels)
    (n : Nat) : collect g n o = (o.ahead g).take n := by
  induction n generalizing o with
  | zero => simp [collect]
  | succ n ih =>
    cases hd : o.done with
    | true => simp [collect, hd, ahead_of_done hd]
    | false =>
      have hn := ih (o := o.advance g) (fits_turn hf)
      simp [collect, hd, ahead_eq_cons hc hf hd, hn]

end Run

theorem answer_of_done {g : Generator} {o : Odometer} (h : o.done = true) (n : Nat) :
    answer g n o = none := by
  induction n with
  | zero => simp [answer, next?, h]
  | succ n ih => simpa [answer, next?, h] using ih

end Odometer

namespace Generator

open Odometer

/-- At the start all commands of the loops are ahead. -/
theorem ahead_start {g : Generator} (hc : checkBackrefs 0 g.groups = .ok ()) (he : ¬ g.HasEmpty)
    (hs : g.isEmpty = false) :
    Fits g.groups (start g).wheels ∧ (start g).ahead g = g.nestedCommands := by
  have hne : ∀ x ∈ g.groups, x.branches = true → x.terms ≠ [] :=
    fun x hx hb ht => he ⟨x, hx, hb, ht⟩
  have hall := @remaining_terms [] g.groups hc hne
  refine ⟨fits_terms hne, ?_⟩
  rw [ahead_of_not_done hs, nestedCommands_eq]
  exact congrArg (List.map g.commandOf) hall

/-- All commands of a generator are those of its loops. -/
theorem commands_eq_nested {g : Generator} (hc : checkBackrefs 0 g.groups = .ok ()) :
    g.commands = g.nestedCommands := by
  by_cases he : g.HasEmpty
  · rw [nestedCommands_eq, bindings_eq_nil hc he, commands, size_eq_zero.mpr he]
    rfl
  · have hs : g.isEmpty = false := by
      rw [← Bool.not_eq_true, isEmpty_iff fun h => absurd h he]
      exact he
    obtain ⟨hf, ha⟩ := ahead_start hc he hs
    rw [commands, collect_eq_take hc hf, ha, List.take_of_length_le]
    exact Nat.le_of_eq (length_nestedCommands hc)

/-- The odometer goes through the commands of the nested loops: call number `n` gives command
number `n` of the loops, and every call behind the last command gives nothing. There are as many
commands as the choices of the groups multiply to, so a group that branches over no term leaves
none. -/
theorem answer_nestedCommands {t : Template} {gs : List Group} {g : Generator}
    (h : ofGroups t gs = .ok g) (hs : g.SeesEmpty) :
    (∀ n, answer g n (start g) = g.nestedCommands[n]?) ∧ g.commands = g.nestedCommands ∧
      g.nestedCommands.length = (gs.map Group.width).prod ∧
      (g.HasEmpty → g.nestedCommands = []) := by
  obtain ⟨-, hc, rfl⟩ := ofGroups_eq_ok.mp h
  have hnil (he : Generator.HasEmpty ⟨t, gs⟩) : Generator.nestedCommands ⟨t, gs⟩ = [] := by
    rw [nestedCommands_eq, bindings_eq_nil hc he]
    rfl
  refine ⟨fun n => ?_, commands_eq_nested hc, ?_, hnil⟩
  · cases hd : Generator.isEmpty ⟨t, gs⟩ with
    | true =>
      rw [hnil ((isEmpty_iff hs).mp hd)]
      exact answer_of_done hd n
    | false =>
      have he : ¬ Generator.HasEmpty ⟨t, gs⟩ := fun he => by
        rw [(isEmpty_iff hs).mpr he] at hd
        exact Bool.noConfusion hd
      obtain ⟨hf, ha⟩ := ahead_start hc he hd
      rw [answer_eq_ahead hc hf, ha]
  · rw [length_nestedCommands hc, size_eq_prod]

/-- Two groups that branch around one that refers back to the first. -/
def turningPair : Generator where
  template := ⟨[.slot 0, .literal [' '], .slot 1, .slot 2]⟩
  groups :=
    [{ terms := [⟨['a'], false⟩, ⟨['b'], false⟩] },
      { terms := [⟨['1'], false⟩], backref := some 1 },
      { terms := [⟨['x'], false⟩, ⟨['y'], false⟩] }]

/-- The first group turns slowest, and the back reference follows it. -/
theorem answer_turningPair :
    ofGroups turningPair.template turningPair.groups = .ok turningPair ∧ turningPair.SeesEmpty ∧
      turningPair.nestedCommands = ["a ax".toList, "a ay".toList, "b bx".toList, "b by".toList] ∧
      answer turningPair 3 (start turningPair) = some "b by".toList ∧
      answer turningPair 4 (start turningPair) = none := by
  have hg : ofGroups turningPair.template turningPair.groups = .ok turningPair := rfl
  have hs : turningPair.SeesEmpty := by decide
  have hall : turningPair.nestedCommands =
      ["a ax".toList, "a ay".toList, "b bx".toList, "b by".toList] := by decide
  obtain ⟨hcalls, -⟩ := answer_nestedCommands hg hs
  exact ⟨hg, hs, hall, by rw [hcalls, hall]; rfl, by rw [hcalls, hall]; rfl⟩

end Generator

end Fanout
