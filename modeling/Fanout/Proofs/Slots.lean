import Fanout.Build
import Fanout.Proofs.Reading

/-!
# The slots of a template

Reading gives each slot the number of its group. So the slots of a template that was read are
numbered in order from zero, one for each group. What happens to the template afterwards changes
its literals and never a slot.

* `slotsOf`: the numbers of the slots among pieces, in order.
* `slotsOf_read`: they are those of the groups.
* `slotsOf_absorbAll`, `slotsOf_ofSegments`: they stay so.
-/

namespace Fanout

/-- The number of a slot. -/
def Segment.slot? : Segment → Option Nat
  | .literal _ => none
  | .slot k => some k

/-- The numbers of the slots among the pieces. -/
def slotsOf (segments : List Segment) : List Nat := segments.filterMap Segment.slot?

theorem slotsOf_append (ss us : List Segment) : slotsOf (ss ++ us) = slotsOf ss ++ slotsOf us := by
  unfold slotsOf
  exact List.filterMap_append

theorem mem_slotsOf {k : Nat} {ss : List Segment} : k ∈ slotsOf ss ↔ .slot k ∈ ss := by
  unfold slotsOf
  rw [List.mem_filterMap]
  constructor
  · rintro ⟨s, hs, hk⟩
    cases s with
    | literal t => exact absurd hk (by simp [Segment.slot?])
    | slot j =>
      obtain rfl : j = k := Option.some.inj hk
      exact hs
  · intro h
    exact ⟨_, h, rfl⟩

theorem slotsOf_cutBefore (k : Nat) (path : Text) (ss : List Segment) :
    slotsOf (cutBefore k path ss) = slotsOf ss := by
  fun_induction cutBefore k path ss with
  | case1 => rfl
  | case2 t j rest h ih => exact ih
  | case3 => rfl
  | case4 j rest h ih => exact congrArg (j :: ·) ih
  | case5 s rest hpair hslot ih =>
    cases s with
    | literal t => exact ih
    | slot j => exact congrArg (j :: ·) ih
  | case6 => rfl

theorem slotsOf_absorb (raw : RawTemplate) (k : Nat) :
    slotsOf (raw.absorb k).segments = slotsOf raw.segments := by
  unfold RawTemplate.absorb
  split
  · exact slotsOf_cutBefore ..
  · rfl

theorem slotsOf_foldl_absorb (raw : RawTemplate) (ks : List Nat) :
    slotsOf (ks.foldl RawTemplate.absorb raw).segments = slotsOf raw.segments := by
  induction ks generalizing raw with
  | nil => rfl
  | cons k ks ih => rw [List.foldl_cons, ih, slotsOf_absorb]

theorem slotsOf_absorbAll (raw : RawTemplate) (gs : List Group) :
    slotsOf (raw.absorbAll gs).segments = slotsOf raw.segments :=
  slotsOf_foldl_absorb raw (absorbing 0 gs)

theorem slotsOf_ofSegments (ss : List Segment) (d : Char) :
    slotsOf (Template.ofSegments ss d).segments = slotsOf ss := by
  unfold Template.ofSegments slotsOf
  rw [List.filterMap_map]
  apply List.filterMap_congr
  intro s _
  cases s <;> rfl

/-! ## Reading -/

namespace Reader

variable {style : GroupStyle} {r : Reader}

/-- The slots that are read are those of the groups that are read. -/
def Numbered (r : Reader) : Prop := slotsOf r.segments = List.range r.groups.length

theorem Numbered.step (h : r.Numbered) (c : Char) : (r.step style c).Numbered := by
  unfold Numbered at h
  unfold Reader.step Numbered
  simp only
  split_ifs
  · rw [keep_segments, keep_groups, h]
  · unfold delimit
    cases ho : r.opened with
    | none => exact h
    | some g =>
      -- the group that is closed gets the next number, and so does its slot
      simp only [slotsOf_append, h, List.length_append, List.length_singleton]
      rw [List.range_succ]
      rfl
  · rw [stop_segments, stop_groups, keep_segments, keep_groups, h]

theorem Numbered.foldl (h : r.Numbered) (t : Text) : (t.foldl (Reader.step style) r).Numbered := by
  induction t generalizing r with
  | nil => exact h
  | cons c t ih => exact ih (h.step c)

end Reader

theorem slotsOf_read {style : GroupStyle} {line : Text} {raw : RawTemplate}
    (h : RawTemplate.read style line = .ok raw) :
    slotsOf raw.segments = List.range raw.groups.length := by
  have hstart : Reader.Numbered {} := rfl
  have hnumbered := @Reader.Numbered.foldl style _ hstart line
  rw [RawTemplate.read, Reader.finish] at h
  split at h
  · exact absurd h (by simp)
  · obtain rfl := Except.ok.inj h
    rw [slotsOf_append, hnumbered]
    exact List.append_nil _

end Fanout
