import Rollio.PreviewAgreement

/-! The sizes that a preview encoder is asked for, in the batches that the passes of its loop find
them in. -/
namespace PreviewBatches
open EncoderConfigs PreviewRuntime PreviewAgreement

def validSize : PreviewControl → Option (UInt32 × UInt32)
  | .requestKeyframe => none
  | .setSize width height =>
    if isValidPreviewDim width && isValidPreviewDim height then some (width, height) else none

def validSizes (controls : List PreviewControl) : List (UInt32 × UInt32) :=
  controls.filterMap validSize

def allControls (polls : List Poll) : List PreviewControl := polls.flatMap Poll.controls

def passes (host : PreviewHost) (state : PreviewState) (polls : List Poll) : PreviewState :=
  polls.foldl (fun state poll => (pass host .dynamic state poll).1) state

/-- A batch that asks for another size first, and for the one that is there in the end. -/
def AwayAndBack (dims : UInt32 × UInt32) (controls : List PreviewControl) : Prop :=
  (validSizes controls).getLast? = some dims ∧ ∃ size ∈ validSizes controls, size ≠ dims

instance (dims : UInt32 × UInt32) (controls : List PreviewControl) :
    Decidable (AwayAndBack dims controls) :=
  inferInstanceAs (Decidable (_ ∧ ∃ size ∈ _, _))

/-- The batch with the last valid size does not go away and come back. -/
def EndsPlainly (host : PreviewHost) (state : PreviewState) (polls : List Poll) : Prop :=
  ∀ front poll rest, polls = front ++ poll :: rest → validSizes (allControls rest) = [] →
    ¬ AwayAndBack (passes host state front).currentDims poll.controls

variable {host : PreviewHost} {state : PreviewState} {dims size : UInt32 × UInt32}
  {sizes : List (UInt32 × UInt32)} {controls : List PreviewControl} {poll : Poll}
  {polls : List Poll}

@[simp] theorem allControls_concat (polls : List Poll) (poll : Poll) :
    allControls (polls ++ [poll]) = allControls polls ++ poll.controls := by
  simp [allControls]

@[simp] theorem validSizes_append (controls more : List PreviewControl) :
    validSizes (controls ++ more) = validSizes controls ++ validSizes more :=
  List.filterMap_append

theorem newDims_append_one (dims : UInt32 × UInt32) (controls : List PreviewControl)
    (control : PreviewControl) :
    newDims .dynamic dims (controls ++ [control]) =
      ((validSize control).filter fun size => size ≠ dims).or (newDims .dynamic dims controls) := by
  simp only [newDims, List.foldl_append, List.foldl_cons, List.foldl_nil]
  generalize List.foldl _ none controls = pending
  cases control with
  | requestKeyframe => rfl
  | setSize width height =>
    simp only [validSize]
    cases isValidPreviewDim width with
    | false => rfl
    | true =>
      cases isValidPreviewDim height with
      | false => rfl
      | true =>
        by_cases hsame : (width, height) = dims
        · simp [hsame, Option.filter]
        · simp [hsame, Option.filter]

/-- A batch leaves the last of its valid sizes that is not there already. -/
theorem newDims_eq (dims : UInt32 × UInt32) (controls : List PreviewControl) :
    newDims .dynamic dims controls =
      ((validSizes controls).filter fun size => size ≠ dims).getLast? := by
  induction controls using List.reverseRecOn with
  | nil => rfl
  | append_singleton controls control ih =>
    rw [newDims_append_one, ih, validSizes_append, List.filter_append, List.getLast?_append]
    congr 1
    cases hvalid : validSize control with
    | none => simp [validSizes, hvalid]
    | some size => by_cases hsame : size = dims <;> simp [validSizes, hvalid, hsame]

theorem getLast?_ne {before : List (UInt32 × UInt32)} :
    (before.filter fun other => other ≠ dims).getLast?.getD dims = dims ↔
      ∀ other ∈ before, other = dims := by
  constructor
  · intro hget other hother
    by_contra hne
    cases hlast : (before.filter fun other => other ≠ dims).getLast? with
    | none =>
      rw [List.getLast?_eq_none_iff, List.filter_eq_nil_iff] at hlast
      exact hlast other hother (by simpa using hne)
    | some last =>
      rw [hlast] at hget
      have hmem := List.mem_of_getLast? hlast
      simp only [List.mem_filter, decide_eq_true_eq] at hmem
      exact hmem.2 hget
  · intro hall
    have hnone : before.filter (fun other => other ≠ dims) = [] := by
      rw [List.filter_eq_nil_iff]
      intro other hother
      simp [hall other hother]
    rw [hnone]
    rfl

/-- The last of the others is the last of all, unless that one is there already; then there must be
no others. -/
theorem getLast?_others_iff (hlast : sizes.getLast? = some size) :
    (sizes.filter fun other => other ≠ dims).getLast?.getD dims = size ↔
      ¬ (sizes.getLast? = some dims ∧ ∃ other ∈ sizes, other ≠ dims) := by
  by_cases hsame : size = dims
  · subst hsame
    rw [getLast?_ne]
    simp [hlast]
  · obtain ⟨before, rfl⟩ := List.getLast?_eq_some_iff.mp hlast
    rw [List.filter_append, List.getLast?_append]
    simp [hsame]

theorem pass_dynamic (host : PreviewHost) (h : Resizable state) (poll : Poll) :
    (pass host .dynamic state poll).1.currentDims =
        ((validSizes poll.controls).filter fun size => size ≠ state.currentDims).getLast?.getD
          state.currentDims ∧
      Resizable (pass host .dynamic state poll).1 := by
  have hpass := pass_keeps host .dynamic state poll
  have hcontrols := applyControls_dynamic host h poll.controls
  rw [hpass.1, hpass.2, hcontrols.1, newDims_eq]
  exact ⟨rfl, hcontrols.2⟩

theorem passes_concat (polls : List Poll) (poll : Poll) :
    passes host state (polls ++ [poll]) = (pass host .dynamic (passes host state polls) poll).1 := by
  simp [passes]

theorem passes_resizable (host : PreviewHost) (h : Resizable state) (polls : List Poll) :
    Resizable (passes host state polls) := by
  induction polls using List.reverseRecOn with
  | nil => exact h
  | append_singleton polls poll ih =>
    rw [passes_concat]
    exact (pass_dynamic host ih poll).2

theorem endsPlainly_concat_nil (hnone : validSizes poll.controls = []) :
    EndsPlainly host state (polls ++ [poll]) ↔ EndsPlainly host state polls := by
  constructor
  · intro h front poll' rest hpolls hrest
    apply h front poll' (rest ++ [poll])
    · rw [hpolls, List.append_assoc, List.cons_append]
    · rw [allControls_concat, validSizes_append, hrest, hnone]
      rfl
  · intro h front poll' rest hpolls hrest haway
    cases rest using List.reverseRecOn with
    | nil =>
      obtain ⟨rfl, hpoll⟩ := List.append_inj' hpolls rfl
      cases hpoll
      simp [AwayAndBack, hnone] at haway
    | append_singleton rest last _ =>
      rw [← List.cons_append, ← List.append_assoc] at hpolls
      obtain ⟨rfl, -⟩ := List.append_inj' hpolls rfl
      rw [allControls_concat, validSizes_append, List.append_eq_nil_iff] at hrest
      exact h front poll' rest rfl hrest.1 haway

theorem endsPlainly_concat (hsome : validSizes poll.controls ≠ []) :
    EndsPlainly host state (polls ++ [poll]) ↔
      ¬ AwayAndBack (passes host state polls).currentDims poll.controls := by
  constructor
  · intro h
    exact h polls poll [] rfl rfl
  · intro h front poll' rest hpolls hrest
    cases rest using List.reverseRecOn with
    | nil =>
      obtain ⟨rfl, hpoll⟩ := List.append_inj' hpolls rfl
      cases hpoll
      exact h
    | append_singleton rest last _ =>
      rw [← List.cons_append, ← List.append_assoc] at hpolls
      obtain ⟨-, hlast⟩ := List.append_inj' hpolls rfl
      cases hlast
      rw [allControls_concat, validSizes_append, List.append_eq_nil_iff] at hrest
      exact absurd hrest.2 hsome

/-- Batches leave a producer at the last valid size that was asked for exactly if the batch with
this size does not come back to the size it found. -/
theorem batches_resize_iff (host : PreviewHost) (h : Resizable state) (polls : List Poll) :
    (passes host state polls).currentDims =
        (validSizes (allControls polls)).getLastD state.currentDims ↔
      EndsPlainly host state polls := by
  induction polls using List.reverseRecOn with
  | nil => simp [passes, allControls, validSizes, EndsPlainly]
  | append_singleton polls poll ih =>
    have hpass := (pass_dynamic host (passes_resizable host h polls) poll).1
    rw [passes_concat, hpass, allControls_concat, validSizes_append]
    cases hlast : (validSizes poll.controls).getLast? with
    | none =>
      rw [List.getLast?_eq_none_iff] at hlast
      rw [endsPlainly_concat_nil hlast, ← ih, hlast, List.append_nil]
      rfl
    | some size =>
      have hsome : validSizes poll.controls ≠ [] := by
        intro hnil
        rw [hnil] at hlast
        cases hlast
      rw [endsPlainly_concat hsome, List.getLastD_eq_getLast?, List.getLast?_append, hlast]
      exact getLast?_others_iff hlast

def smallPreview : PreviewState := .jpeg (.new 320 240 10)

theorem batches_resize_apart :
    (passes quietHost smallPreview
        [{ controls := [.setSize 640 480] }, { controls := [.setSize 320 240] }]).currentDims =
      (320, 240) := by
  have hresizable : Resizable smallPreview := True.intro
  apply (batches_resize_iff quietHost hresizable _).mpr
  intro front poll rest hpolls hrest
  match front with
  | [] =>
    cases hpolls
    cases hrest
  | [_] =>
    cases hpolls
    decide +kernel
  | _ :: _ :: front => simp at hpolls

def together : List Poll := [{ controls := [.setSize 640 480, .setSize 320 240] }]

theorem batch_goes_away :
    (passes quietHost smallPreview together).currentDims = (640, 480) ∧
      (passes quietHost smallPreview together).currentDims ≠
        (validSizes (allControls together)).getLastD smallPreview.currentDims := by
  decide +kernel

end PreviewBatches
