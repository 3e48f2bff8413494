import Rollio.AcceptedProjects
import Rollio.PartialRuns
import Rollio.PreviewSizes

/-! Whether the preview encoders have the size that the visualizer keeps, once everything that was
forwarded has been read. -/
namespace PreviewAgreement
open RecordingEncoder (OwnedFrame)
open RuntimeConfig EncoderConfigs ProjectConfigs DerivedConfigs PreviewRuntime PreviewSizes
open PartialRuns Outcomes

section Sizes

/-- A size that a preview encoder does not ignore. -/
def Valid (size : PreviewSize) : Prop :=
  isValidPreviewDim size.width = true ∧ isValidPreviewDim size.height = true

theorem aligned_valid (value : UInt32) :
    isValidPreviewDim
      (if value - value % previewDimensionAlignment < minPreviewDimension then minPreviewDimension
        else value - value % previewDimensionAlignment) = true := by
  have hle : value % previewDimensionAlignment ≤ value := by
    rw [UInt32.le_iff_toNat_le, UInt32.toNat_mod]
    exact Nat.mod_le _ _
  have haligned : (value - value % previewDimensionAlignment) % previewDimAlignment = 0 := by
    rw [← UInt32.toNat_inj, UInt32.toNat_mod, UInt32.toNat_sub_of_le _ _ hle, UInt32.toNat_mod]
    show (value.toNat - value.toNat % 16) % 16 = 0
    omega
  by_cases h : value - value % previewDimensionAlignment < minPreviewDimension
  · rw [if_pos h]
    decide
  · rw [if_neg h, isValidPreviewDim, haligned]
    exact Bool.and_eq_true_iff.mpr ⟨decide_eq_true (UInt32.not_lt.mp h), rfl⟩

theorem clampPreviewDimension_valid (value : UInt32) :
    isValidPreviewDim (clampPreviewDimension value) = true :=
  aligned_valid _

theorem new_valid (scale : UInt32 → UInt32 → UInt32) (width height : UInt32) :
    Valid (PreviewSize.new scale width height) := by
  have hpair : ∀ w h, Valid ⟨clampPreviewDimension w, clampPreviewDimension h⟩ := fun w h =>
    ⟨clampPreviewDimension_valid w, clampPreviewDimension_valid h⟩
  simp only [PreviewSize.new]
  generalize (if width < height then height else width) = maxDim
  by_cases hm : maxPreviewDimension < maxDim
  · rw [if_pos hm]
    exact hpair _ _
  · rw [if_neg hm]
    exact hpair _ _

end Sizes

section Encoders

def setSize (size : PreviewSize) : PreviewControl := .setSize size.width size.height

theorem newDims_concat {size : PreviewSize} (hv : Valid size) (dims : UInt32 × UInt32)
    (sizes : List PreviewSize) :
    newDims .dynamic dims ((sizes ++ [size]).map setSize) =
      if (size.width, size.height) = dims then newDims .dynamic dims (sizes.map setSize)
      else some (size.width, size.height) := by
  simp only [newDims, List.map_append, List.map_cons, List.map_nil, List.foldl_append,
    List.foldl_cons, List.foldl_nil, setSize, reduceCtorEq, if_false, hv.1, hv.2, Bool.not_true,
    Bool.or_self, Bool.false_eq_true]

theorem newDims_same {size : PreviewSize} {sizes : List PreviewSize} (hv : Valid size)
    (h : ∀ s ∈ sizes, s = size) :
    newDims .dynamic (size.width, size.height) (sizes.map setSize) = none := by
  induction sizes using List.reverseRecOn with
  | nil => rfl
  | append_singleton sizes s ih =>
    obtain rfl := h s (List.mem_append_right _ List.mem_cons_self)
    rw [newDims_concat hv, if_pos rfl]
    exact ih fun q hq => h q (List.mem_append_left _ hq)

/-- A batch that ends with the size the encoder has holds no other. -/
def Settles (encoder : PreviewEncoder) : Prop :=
  encoder.sizes.getLast? = some encoder.size → ∀ size ∈ encoder.sizes, size = encoder.size

def Resizable : PreviewState → Prop
  | .jpeg _ => True
  | .encoded _ preview => preview.resizePolicy = .dynamic

theorem handleFrame_keeps (host : PreviewHost) (frame : OwnedFrame) (state : PreviewState) :
    (state.handleFrame host frame).1.currentDims = state.currentDims ∧
      (Resizable (state.handleFrame host frame).1 ↔ Resizable state) := by
  cases state with
  | jpeg builder =>
    simp only [PreviewState.handleFrame]
    split
    · exact ⟨rfl, Iff.rfl⟩
    · split
      · exact ⟨rfl, Iff.rfl⟩
      · exact ⟨rfl, Iff.rfl⟩
  | encoded session preview =>
    simp only [PreviewState.handleFrame]
    split
    · exact ⟨rfl, Iff.rfl⟩
    · split
      · exact ⟨rfl, Iff.rfl⟩
      · exact ⟨rfl, Iff.rfl⟩

theorem resize_resizable (host : PreviewHost) (width height : UInt32) {state : PreviewState}
    (hr : Resizable state) :
    (state.resize host width height).1.currentDims = (width, height) ∧
      Resizable (state.resize host width height).1 := by
  cases state with
  | jpeg builder => exact ⟨rfl, True.intro⟩
  | encoded session preview =>
    have hp : preview.resizePolicy = .dynamic := hr
    have hnot : ¬ preview.resizePolicy = .fixedSource := by
      rw [hp]
      exact nofun
    simp only [PreviewState.resize, if_neg hnot]
    exact ⟨rfl, hp⟩

theorem pass_keeps (host : PreviewHost) (policy : PreviewResizePolicy) (state : PreviewState)
    (poll : Poll) :
    (pass host policy state poll).1.currentDims =
        (applyControls host policy state poll.controls).1.currentDims ∧
      (Resizable (pass host policy state poll).1 ↔
        Resizable (applyControls host policy state poll.controls).1) := by
  simp only [PreviewRuntime.pass]
  split
  · exact ⟨rfl, Iff.rfl⟩
  · next frame _ =>
    have hkeeps := handleFrame_keeps host frame (applyControls host policy state poll.controls).1
    split
    · next heq =>
      rw [heq] at hkeeps
      exact hkeeps
    · next heq =>
      rw [heq] at hkeeps
      exact hkeeps

theorem applyControls_dynamic (host : PreviewHost) {state : PreviewState} (hr : Resizable state)
    (controls : List PreviewControl) :
    (applyControls host .dynamic state controls).1.currentDims =
        (newDims .dynamic state.currentDims controls).getD state.currentDims ∧
      Resizable (applyControls host .dynamic state controls).1 := by
  simp only [applyControls]
  split
  · next heq =>
    rw [heq]
    exact ⟨rfl, hr⟩
  · next width height heq =>
    rw [heq]
    exact resize_resizable host width height hr

theorem poll_resizable (host : PreviewHost) (frames : List OwnedFrame) {encoder : PreviewEncoder}
    (hp : encoder.policy = .dynamic) (hr : Resizable encoder.state) :
    Resizable (encoder.poll host frames).state := by
  show Resizable (pass host encoder.policy encoder.state _).1
  rw [(pass_keeps host _ _ _).2, hp]
  exact (applyControls_dynamic host hr _).2

theorem poll_size (host : PreviewHost) (frames : List OwnedFrame) {encoder : PreviewEncoder}
    (hp : encoder.policy = .dynamic) (hr : Resizable encoder.state) (hs : Settles encoder)
    (hv : ∀ size ∈ encoder.sizes, Valid size) :
    (encoder.poll host frames).size = encoder.sizes.getLastD encoder.size := by
  have hdims : (encoder.poll host frames).state.currentDims =
      (newDims .dynamic encoder.state.currentDims (encoder.sizes.map setSize)).getD
        encoder.state.currentDims := by
    show (pass host encoder.policy encoder.state _).1.currentDims = _
    rw [(pass_keeps host _ _ _).1, hp]
    exact (applyControls_dynamic host hr _).1
  have hsize : (encoder.poll host frames).size =
      (⟨(encoder.poll host frames).state.currentDims.1,
        (encoder.poll host frames).state.currentDims.2⟩ : PreviewSize) := rfl
  rw [hsize, hdims]
  rcases List.eq_nil_or_concat encoder.sizes with hnil | ⟨init, last, hlast⟩
  · rw [hnil]
    rfl
  · rw [List.concat_eq_append] at hlast
    have hvl : Valid last := hv last (hlast ▸ List.mem_append_right _ List.mem_cons_self)
    rw [hlast, List.getLastD_concat]
    by_cases hd : (last.width, last.height) = encoder.state.currentDims
    · have hcur : last = encoder.size := by
        rw [PreviewEncoder.size, ← hd]
      have hsame := hs (by rw [hlast, List.getLast?_concat, hcur])
      rw [← hlast, ← hd, newDims_same hvl fun q hq => (hsame q hq).trans hcur.symm]
      rfl
    · rw [newDims_concat hvl, if_neg hd]
      rfl

end Encoders

section Runs
variable {scale : UInt32 → UInt32 → UInt32} {host : PreviewHost} {s : System}

theorem getLastD_append {α : Type} (l l' : List α) (a : α) :
    (l ++ l').getLastD a = l'.getLastD (l.getLastD a) := by
  induction l generalizing a with
  | nil => rfl
  | cons b l ih => rw [List.cons_append, List.getLastD_cons, List.getLastD_cons, ih]

/-- The steps that keep the sizes together. A handler does not overtake an older request with its
height or with a size that it forwards, a reset changes nothing, and a batch that ends with the
size an encoder has holds no other. -/
def Orderly (s : System) : Event → Prop
  | .storeHeight place => ∀ r ∈ s.requests.take place, r.changed ≠ none
  | .forward place =>
    (∃ r ∈ s.requests[place]?, r.changed = some true) →
      ∀ r ∈ s.requests.take place, r.changed = some false
  | .resetWidth _ => s.activeWidth = defaultSize.width
  | .resetHeight _ => s.activeHeight = defaultSize.height
  | .poll encoder _ => ∀ e ∈ s.encoders[encoder]?, e.policy = .dynamic → Settles e
  | .connect | .requestSize .. | .disconnect _ | .relay => True

instance (encoder : PreviewEncoder) : Decidable (Settles encoder) :=
  inferInstanceAs (Decidable (_ → _))

instance : (s : System) → (event : Event) → Decidable (Orderly s event)
  | s, .storeHeight place =>
    inferInstanceAs (Decidable (∀ r ∈ s.requests.take place, r.changed ≠ none))
  | s, .forward place =>
    inferInstanceAs (Decidable ((∃ r ∈ s.requests[place]?, r.changed = some true) →
      ∀ r ∈ s.requests.take place, r.changed = some false))
  | s, .resetWidth _ => inferInstanceAs (Decidable (s.activeWidth = defaultSize.width))
  | s, .resetHeight _ => inferInstanceAs (Decidable (s.activeHeight = defaultSize.height))
  | s, .poll encoder _ =>
    inferInstanceAs (Decidable (∀ e ∈ s.encoders[encoder]?, e.policy = .dynamic → Settles e))
  | _, .connect | _, .requestSize .. | _, .disconnect _ | _, .relay => isTrue True.intro

def changedSizes (requests : List SizeRequest) : List PreviewSize :=
  requests.filterMap fun r => if r.changed = some true then some r.size else none

/-- The size an encoder ends with when all that is under way has reached it. -/
def finalSize (resizes : List PreviewSize) (stored : List SizeRequest) (encoder : PreviewEncoder) :
    PreviewSize :=
  (encoder.sizes ++ resizes ++ changedSizes stored).getLastD encoder.size

/-- Each request has found the width of the one before it. -/
def Widths : UInt32 → List SizeRequest → UInt32 → Prop
  | width, [], active => width = active
  | width, r :: requests, active => r.prevWidth = width ∧ Widths r.size.width requests active

/-- Both active dimensions follow the sizes under way: the height the requests that have stored
theirs, the width also those that have not. -/
structure Following (s : System) (stored pending : List SizeRequest) : Prop where
  requests : s.requests = stored ++ pending
  isStored : ∀ r ∈ stored, r.changed ≠ none
  isPending : ∀ r ∈ pending, r.changed = none
  validRequests : ∀ r ∈ s.requests, Valid r.size
  validResizes : ∀ size ∈ s.resizes, Valid size
  validSizes : ∀ e ∈ s.encoders, ∀ size ∈ e.sizes, Valid size
  resizable : ∀ e ∈ s.encoders, e.policy = .dynamic → Resizable e.state
  height : ∀ e ∈ s.encoders, e.policy = .dynamic →
    (finalSize s.resizes stored e).height = s.activeHeight
  widths : ∀ e ∈ s.encoders, e.policy = .dynamic →
    Widths (finalSize s.resizes stored e).width pending s.activeWidth

variable {stored pending : List SizeRequest}

theorem Widths.concat {width active : UInt32} {requests : List SizeRequest}
    (h : Widths width requests active) (r : SizeRequest) (hr : r.prevWidth = active) :
    Widths width (requests ++ [r]) r.size.width := by
  induction requests generalizing width with
  | nil => exact ⟨hr.trans h.symm, rfl⟩
  | cons q requests ih => exact ⟨h.1, ih h.2⟩

theorem changedSizes_append (a b : List SizeRequest) :
    changedSizes (a ++ b) = changedSizes a ++ changedSizes b := List.filterMap_append

theorem changedSizes_cons (r : SizeRequest) (requests : List SizeRequest) :
    changedSizes (r :: requests) =
      (if r.changed = some true then [r.size] else []) ++ changedSizes requests := by
  rw [changedSizes, List.filterMap_cons]
  by_cases hr : r.changed = some true
  · rw [if_pos hr, if_pos hr]
    rfl
  · rw [if_neg hr, if_neg hr]
    rfl

theorem changedSizes_of_unchanged {requests : List SizeRequest}
    (h : ∀ r ∈ requests, r.changed = some false) : changedSizes requests = [] := by
  refine List.filterMap_eq_nil_iff.mpr fun r hr => ?_
  rw [h r hr]
  exact if_neg (by decide)

theorem Following.of_clients (h : Following s stored pending) (count : ℕ)
    (clients : List ClientPhase) :
    Following { s with connectedClients := count, clients } stored pending :=
  ⟨h.requests, h.isStored, h.isPending, h.validRequests, h.validResizes, h.validSizes, h.resizable,
    h.height, h.widths⟩

theorem Following.requestSize (h : Following s stored pending) (client : ℕ)
    (width height : UInt32) :
    ∃ pending, Following (next scale host s (.requestSize client width height)) stored pending := by
  let r : SizeRequest :=
    { client, size := PreviewSize.new scale width height, prevWidth := s.activeWidth }
  refine ⟨pending ++ [r], ?_, h.isStored, ?_, ?_, h.validResizes, h.validSizes, h.resizable,
    h.height, ?_⟩
  · show s.requests ++ [r] = stored ++ (pending ++ [r])
    rw [h.requests, List.append_assoc]
  · exact List.forall_mem_append.mpr ⟨h.isPending, fun q hq => List.mem_singleton.mp hq ▸ rfl⟩
  · refine List.forall_mem_append.mpr ⟨h.validRequests, fun q hq => ?_⟩
    rw [List.mem_singleton.mp hq]
    exact new_valid scale width height
  · intro e he hp
    exact (h.widths e he hp).concat r rfl

theorem split_at_place {α : Type} {l : List α} {place : ℕ} {a : α} (h : l[place]? = some a) :
    ∃ older newer, l.take place = older ∧ l = older ++ a :: newer ∧
      l.eraseIdx place = older ++ newer ∧ ∀ b, l.set place b = older ++ b :: newer := by
  obtain ⟨hlt, rfl⟩ := List.getElem?_eq_some_iff.mp h
  refine ⟨l.take place, l.drop (place + 1), rfl, ?_, List.eraseIdx_eq_take_drop_succ l place, ?_⟩
  · rw [← List.drop_eq_getElem_cons hlt, List.take_append_drop]
  · intro b
    rw [List.set_eq_take_append_cons_drop, if_pos hlt]

/-- The first request that has not stored its height stands right behind those that have. -/
theorem Following.first_pending (h : Following s stored pending) {older newer : List SizeRequest}
    {r : SizeRequest} (heq : s.requests = older ++ r :: newer) (hr : r.changed = none)
    (hold : ∀ q ∈ older, q.changed ≠ none) : older = stored ∧ pending = r :: newer := by
  have hsplit : stored ++ pending = older ++ r :: newer := h.requests.symm.trans heq
  rcases List.append_eq_append_iff.mp hsplit with ⟨c, hc, hp⟩ | ⟨c, hc, hp⟩
  · cases c with
    | nil =>
      rw [List.append_nil] at hc
      exact ⟨hc, hp⟩
    | cons q c =>
      have hq := h.isPending q (hp ▸ List.mem_append_left _ List.mem_cons_self)
      exact absurd hq (hold q (hc ▸ List.mem_append_right _ List.mem_cons_self))
  · cases c with
    | nil =>
      rw [List.append_nil] at hc
      exact ⟨hc.symm, hp.symm⟩
    | cons q c =>
      obtain ⟨rfl, -⟩ := List.cons.inj hp
      exact absurd hr (h.isStored _ (hc ▸ List.mem_append_right _ List.mem_cons_self))

theorem Following.mem_stored (h : Following s stored pending) {older newer : List SizeRequest}
    {r : SizeRequest} (heq : s.requests = older ++ r :: newer) (hr : r.changed ≠ none) :
    ∃ rest, stored = older ++ r :: rest ∧ newer = rest ++ pending := by
  have hsplit : stored ++ pending = older ++ r :: newer := h.requests.symm.trans heq
  rcases List.append_eq_append_iff.mp hsplit with ⟨c, hc, hp⟩ | ⟨c, hc, hp⟩
  · exact absurd (h.isPending r (hp ▸ List.mem_append_right _ List.mem_cons_self)) hr
  · cases c with
    | nil =>
      rw [List.nil_append] at hp
      exact absurd (h.isPending r (hp ▸ List.mem_cons_self)) hr
    | cons q c =>
      obtain ⟨rfl, hn⟩ := List.cons.inj hp
      exact ⟨c, hc, hn⟩

theorem finalSize_append (resizes : List PreviewSize) (stored : List SizeRequest)
    (r : SizeRequest) (encoder : PreviewEncoder) :
    finalSize resizes (stored ++ [r]) encoder =
      if r.changed = some true then r.size else finalSize resizes stored encoder := by
  rw [finalSize, changedSizes_append, ← List.append_assoc, getLastD_append, changedSizes_cons]
  by_cases hr : r.changed = some true
  · rw [if_pos hr, if_pos hr]
    rfl
  · rw [if_neg hr, if_neg hr]
    rfl

/-- A request that changes nothing asks for the size that was stored. -/
theorem store_unchanged {r : SizeRequest} {prevHeight : UInt32}
    (hc : (r.store prevHeight).changed ≠ some true) : r.size = ⟨r.prevWidth, prevHeight⟩ := by
  have hb : ¬ (r.prevWidth != r.size.width || prevHeight != r.size.height) = true := fun hb =>
    hc (congrArg some hb)
  rw [Bool.or_eq_true, bne_iff_ne, bne_iff_ne, not_or, not_not, not_not] at hb
  rw [hb.1, hb.2]

theorem Following.storeHeight (h : Following s stored pending) {place : ℕ}
    (hr : ∃ r ∈ s.requests[place]?, r.changed = none)
    (hold : ∀ r ∈ s.requests.take place, r.changed ≠ none) :
    ∃ stored pending, Following (next scale host s (.storeHeight place)) stored pending := by
  obtain ⟨r, hget, hnone⟩ := hr
  obtain ⟨older, newer, htake, heq, -, hset⟩ := split_at_place hget
  obtain ⟨rfl, rfl⟩ := h.first_pending heq hnone (htake ▸ hold)
  let r' := r.store s.activeHeight
  have hvalid : Valid r.size :=
    h.validRequests r (heq ▸ List.mem_append_right _ List.mem_cons_self)
  have hnext : next scale host s (.storeHeight place) =
      { s with activeHeight := r.size.height, requests := older ++ r' :: newer } := by
    simp only [next, Option.mem_def.mp hget, hset]
    rfl
  rw [hnext]
  have hfinal : ∀ e ∈ s.encoders, e.policy = .dynamic →
      finalSize s.resizes (older ++ [r']) e = r.size := by
    intro e he hp
    rw [finalSize_append]
    by_cases hc : r'.changed = some true
    · rw [if_pos hc]
      rfl
    · rw [if_neg hc, store_unchanged hc, (h.widths e he hp).1, ← h.height e he hp]
  refine ⟨older ++ [r'], newer, ?_, ?_, ?_, ?_, h.validResizes, h.validSizes, h.resizable, ?_, ?_⟩
  · exact (List.append_assoc older [r'] newer).symm
  · exact List.forall_mem_append.mpr ⟨h.isStored, fun q hq => List.mem_singleton.mp hq ▸ nofun⟩
  · exact fun q hq => h.isPending q (List.mem_cons_of_mem _ hq)
  · intro q hq
    rcases List.mem_append.mp hq with hq | hq
    · exact h.validRequests q (heq ▸ List.mem_append_left _ hq)
    · rcases List.mem_cons.mp hq with rfl | hq
      · exact hvalid
      · exact h.validRequests q (heq ▸ List.mem_append_right _ (List.mem_cons_of_mem _ hq))
  · intro e he hp
    rw [hfinal e he hp]
  · intro e he hp
    rw [hfinal e he hp]
    exact (h.widths e he hp).2

theorem Following.forward (h : Following s stored pending) {place : ℕ}
    (hr : ∃ r ∈ s.requests[place]?, r.changed ≠ none)
    (hold : (∃ r ∈ s.requests[place]?, r.changed = some true) →
      ∀ r ∈ s.requests.take place, r.changed = some false) :
    ∃ stored pending, Following (next scale host s (.forward place)) stored pending := by
  obtain ⟨r, hget, hsome⟩ := hr
  obtain ⟨older, newer, htake, heq, herase, -⟩ := split_at_place hget
  obtain ⟨rest, rfl, rfl⟩ := h.mem_stored heq hsome
  have hr : r ∈ s.requests := heq ▸ List.mem_append_right _ List.mem_cons_self
  let resizes := if r.changed = some true then s.resizes ++ [r.size] else s.resizes
  have hnext : next scale host s (.forward place) =
      { s with
        clients := s.clients.set r.client .idle
        requests := older ++ (rest ++ pending)
        resizes := resizes } := by
    simp only [next, Option.mem_def.mp hget, herase]
    rfl
  rw [hnext]
  have hfinal : ∀ e, finalSize resizes (older ++ rest) e =
      finalSize s.resizes (older ++ r :: rest) e := by
    intro e
    rw [finalSize, finalSize, changedSizes_append, changedSizes_append, changedSizes_cons]
    by_cases hc : r.changed = some true
    · have hresizes : resizes = s.resizes ++ [r.size] := if_pos hc
      rw [hresizes, if_pos hc, changedSizes_of_unchanged (htake ▸ hold ⟨r, hget, hc⟩),
        List.nil_append, List.nil_append]
      simp only [List.append_assoc]
    · have hresizes : resizes = s.resizes := if_neg hc
      rw [hresizes, if_neg hc, List.nil_append]
  have hsub : ∀ q ∈ older ++ (rest ++ pending), q ∈ s.requests := by
    intro q hq
    rw [heq]
    rcases List.mem_append.mp hq with hq | hq
    · exact List.mem_append_left _ hq
    · exact List.mem_append_right _ (List.mem_cons_of_mem _ hq)
  refine ⟨older ++ rest, pending, (List.append_assoc older rest pending).symm, ?_, h.isPending,
    ?_, ?_, h.validSizes, h.resizable, ?_, ?_⟩
  · intro q hq
    refine h.isStored q ?_
    rcases List.mem_append.mp hq with hq | hq
    · exact List.mem_append_left _ hq
    · exact List.mem_append_right _ (List.mem_cons_of_mem _ hq)
  · exact fun q hq => h.validRequests q (hsub q hq)
  · intro size hsize
    by_cases hc : r.changed = some true
    · have hmem : size ∈ s.resizes ++ [r.size] := (if_pos hc : resizes = _) ▸ hsize
      rcases List.mem_append.mp hmem with hmem | hmem
      · exact h.validResizes size hmem
      · exact List.mem_singleton.mp hmem ▸ h.validRequests r hr
    · exact h.validResizes size ((if_neg hc : resizes = _) ▸ hsize)
  · intro e he hp
    rw [hfinal]
    exact h.height e he hp
  · intro e he hp
    rw [hfinal]
    exact h.widths e he hp

theorem offer_dynamic {encoder : PreviewEncoder} (hp : encoder.policy = .dynamic)
    (size : PreviewSize) :
    encoder.offer size = { encoder with sizes := encoder.sizes ++ [size] } := if_pos hp

theorem offer_keeps (encoder : PreviewEncoder) (size : PreviewSize) :
    (encoder.offer size).policy = encoder.policy ∧ (encoder.offer size).state = encoder.state ∧
      ∀ q ∈ (encoder.offer size).sizes, q = size ∨ q ∈ encoder.sizes := by
  by_cases hp : encoder.policy = .dynamic
  · rw [offer_dynamic hp]
    refine ⟨rfl, rfl, fun q hq => ?_⟩
    rcases List.mem_append.mp hq with hq | hq
    · exact Or.inr hq
    · exact Or.inl (List.mem_singleton.mp hq)
  · rw [PreviewEncoder.offer, if_neg hp]
    exact ⟨rfl, rfl, fun q hq => Or.inr hq⟩

/-- A size that is relayed takes its place behind those sent before. -/
theorem finalSize_offer {encoder : PreviewEncoder} (hp : encoder.policy = .dynamic)
    (size : PreviewSize) (resizes : List PreviewSize) (stored : List SizeRequest) :
    finalSize resizes stored (encoder.offer size) =
      finalSize (size :: resizes) stored encoder := by
  rw [offer_dynamic hp, finalSize, finalSize]
  show ((encoder.sizes ++ [size]) ++ resizes ++ _).getLastD encoder.size = _
  simp only [List.append_assoc, List.nil_append, List.cons_append]

theorem Following.relay (h : Following s stored pending) :
    Following (next scale host s .relay) stored pending := by
  cases hres : s.resizes with
  | nil =>
    have hnext : next scale host s .relay = s := by simp only [next, hres]
    exact hnext.symm ▸ h
  | cons size resizes =>
    have hnext : next scale host s .relay =
        { s with resizes, encoders := s.encoders.map (.offer size) } := by
      simp only [next, hres]
    have hvalid : Valid size := h.validResizes size (hres ▸ List.mem_cons_self)
    rw [hnext]
    refine ⟨h.requests, h.isStored, h.isPending, h.validRequests, ?_, ?_, ?_, ?_, ?_⟩
    · exact fun q hq => h.validResizes q (hres ▸ List.mem_cons_of_mem _ hq)
    · refine List.forall_mem_map.mpr fun e he q hq => ?_
      rcases (offer_keeps e size).2.2 q hq with rfl | hq
      · exact hvalid
      · exact h.validSizes e he q hq
    · refine List.forall_mem_map.mpr fun e he hp => ?_
      rw [(offer_keeps e size).2.1]
      exact h.resizable e he ((offer_keeps e size).1 ▸ hp)
    · refine List.forall_mem_map.mpr fun e he hp => ?_
      rw [(offer_keeps e size).1] at hp
      rw [finalSize_offer hp, ← hres]
      exact h.height e he hp
    · refine List.forall_mem_map.mpr fun e he hp => ?_
      rw [(offer_keeps e size).1] at hp
      rw [finalSize_offer hp, ← hres]
      exact h.widths e he hp

/-- A batch that settles leaves what is to come as it is. -/
theorem finalSize_poll {encoder : PreviewEncoder} (hp : encoder.policy = .dynamic)
    (hr : Resizable encoder.state) (hs : Settles encoder)
    (hv : ∀ size ∈ encoder.sizes, Valid size) (frames : List OwnedFrame)
    (resizes : List PreviewSize) (stored : List SizeRequest) :
    finalSize resizes stored (encoder.poll host frames) = finalSize resizes stored encoder := by
  rw [finalSize, finalSize, poll_size host frames hp hr hs hv, List.append_assoc,
    List.append_assoc, getLastD_append encoder.sizes]
  rfl

theorem forall_mem_modify {α : Type} {P : α → Prop} {f : α → α} {l : List α} {place : ℕ}
    (h : ∀ a ∈ l, P a) (hf : ∀ a ∈ l[place]?, P (f a)) : ∀ a ∈ l.modify place f, P a := by
  induction l generalizing place with
  | nil =>
    intro a ha
    rw [List.modify_nil] at ha
    cases ha
  | cons b l ih =>
    cases place with
    | zero =>
      rw [List.modify_zero_cons]
      exact List.forall_mem_cons.mpr ⟨hf b rfl, (List.forall_mem_cons.mp h).2⟩
    | succ place =>
      rw [List.modify_succ_cons]
      exact List.forall_mem_cons.mpr
        ⟨(List.forall_mem_cons.mp h).1, ih (List.forall_mem_cons.mp h).2 hf⟩

theorem Following.poll (h : Following s stored pending) {encoder : ℕ} {frames : List OwnedFrame}
    (hs : ∀ e ∈ s.encoders[encoder]?, e.policy = .dynamic → Settles e) :
    Following (next scale host s (.poll encoder frames)) stored pending := by
  have hmem : ∀ e ∈ s.encoders[encoder]?, e ∈ s.encoders := fun e he => List.mem_of_getElem? he
  refine ⟨h.requests, h.isStored, h.isPending, h.validRequests, h.validResizes, ?_, ?_, ?_, ?_⟩
  · exact forall_mem_modify h.validSizes fun e _ q hq => (by cases hq)
  · refine forall_mem_modify h.resizable fun e he hp => ?_
    exact poll_resizable host frames hp (h.resizable e (hmem e he) hp)
  · refine forall_mem_modify h.height fun e he hp => ?_
    have he' := hmem e he
    have hp : e.policy = .dynamic := hp
    rw [finalSize_poll hp (h.resizable e he' hp) (hs e he hp) (h.validSizes e he')]
    exact h.height e he' hp
  · refine forall_mem_modify h.widths fun e he hp => ?_
    have he' := hmem e he
    have hp : e.policy = .dynamic := hp
    rw [finalSize_poll hp (h.resizable e he' hp) (hs e he hp) (h.validSizes e he')]
    exact h.widths e he' hp

/-- An orderly step keeps both dimensions with the sizes under way. -/
theorem Following.next (h : Following s stored pending) {event : Event}
    (henabled : Enabled s event) (hok : Orderly s event) :
    ∃ stored pending, Following (next scale host s event) stored pending := by
  cases event with
  | connect => exact ⟨stored, pending, h.of_clients _ _⟩
  | requestSize client width height => exact ⟨stored, h.requestSize client width height⟩
  | storeHeight place => exact h.storeHeight henabled hok
  | forward place => exact h.forward henabled hok
  | disconnect client => exact ⟨stored, pending, h.of_clients _ _⟩
  | resetWidth client =>
    have hok : s.activeWidth = defaultSize.width := hok
    refine ⟨stored, pending, ?_⟩
    rw [PreviewSizes.next, ← hok]
    exact h.of_clients _ _
  | resetHeight client =>
    have hok : s.activeHeight = defaultSize.height := hok
    refine ⟨stored, pending, ?_⟩
    rw [PreviewSizes.next, ← hok]
    exact h.of_clients _ _
  | relay => exact ⟨stored, pending, h.relay⟩
  | poll encoder frames => exact ⟨stored, pending, h.poll hok⟩

structure Fresh (s : System) : Prop where
  clients : s.clients = []
  connected : s.connectedClients = 0
  requests : s.requests = []
  resizes : s.resizes = []
  active : s.activeSize = defaultSize
  sizes : ∀ e ∈ s.encoders, e.sizes = []
  resizable : ∀ e ∈ s.encoders, e.policy = .dynamic → Resizable e.state

theorem openState_resizable {preview : PreviewEncoderConfig} {state : PreviewState}
    (h : PreviewState.openState preview = .ok state) (hp : preview.resizePolicy = .dynamic) :
    Resizable state := by
  cases hmode : preview.outputMode with
  | jpeg =>
    rw [PreviewState.openState, hmode] at h
    by_cases hn : preview.jpegTopic.isNone
    · cases (if_pos hn).symm.trans h
    · cases (if_neg hn).symm.trans h
      exact True.intro
  | encoded =>
    rw [PreviewState.openState, hmode] at h
    by_cases hn : preview.packetTopic.isNone
    · cases (if_pos hn).symm.trans h
    · cases (if_neg hn).symm.trans h
      exact hp

theorem start_fresh {α : Type} {config : ProjectConfig α} (h : start config = .ok s) :
    Fresh s := by
  obtain ⟨encoders, he, hs⟩ := bind_eq_ok.mp h
  obtain rfl := pure_eq_ok.mp hs
  have hopen : ∀ e ∈ encoders, ∃ preview state, PreviewState.openState preview = .ok state ∧
      e = { policy := preview.resizePolicy, state } := by
    intro e hmem
    obtain ⟨preview, -, hopen⟩ := exists_of_mem_mapM he hmem
    obtain ⟨state, hstate, hpure⟩ := bind_eq_ok.mp hopen
    exact ⟨preview, state, hstate, (pure_eq_ok.mp hpure).symm⟩
  refine ⟨rfl, rfl, rfl, rfl, rfl, ?_, ?_⟩
  · intro e he
    obtain ⟨preview, state, -, rfl⟩ := hopen e he
    rfl
  · intro e he hp
    obtain ⟨preview, state, hstate, rfl⟩ := hopen e he
    exact openState_resizable hstate hp

/-- Every resizable preview encoder has the size that the visualizer keeps. -/
def Agrees (s : System) : Prop :=
  ∀ e ∈ s.encoders, e.policy = .dynamic → e.size = s.activeSize

theorem Fresh.following (h : Fresh s) (ha : Agrees s) : Following s [] [] := by
  have hfinal : ∀ e ∈ s.encoders, e.policy = .dynamic → finalSize s.resizes [] e = s.activeSize := by
    intro e he hp
    rw [finalSize, h.resizes, h.sizes e he]
    exact ha e he hp
  refine ⟨h.requests, nofun, nofun, ?_, ?_, ?_, h.resizable, ?_, ?_⟩
  · rw [h.requests]
    exact nofun
  · rw [h.resizes]
    exact nofun
  · intro e he
    rw [h.sizes e he]
    exact nofun
  · intro e he hp
    rw [hfinal e he hp]
    rfl
  · intro e he hp
    rw [hfinal e he hp]
    rfl

/-- Where nothing is under way, what follows is there. -/
theorem Following.agrees (h : Following s stored pending) (hd : Drained s) : Agrees s := by
  have hnil := List.append_eq_nil_iff.mp (h.requests.symm.trans hd.requests)
  obtain ⟨rfl, rfl⟩ := hnil
  intro e he hp
  have hfinal : finalSize s.resizes [] e = e.size := by
    rw [finalSize, hd.resizes, hd.sizes e he]
    rfl
  have hh := h.height e he hp
  have hw : (finalSize s.resizes [] e).width = s.activeWidth := h.widths e he hp
  rw [hfinal] at hh hw
  rw [System.activeSize, ← hh, ← hw]

end Runs

section Departures
variable {scale : UInt32 → UInt32 → UInt32} {host : PreviewHost} {s : System}

def Counted : ClientPhase → Bool
  | .idle | .busy => true
  | .leaving | .resetting | .gone => false

/-- Without clients the size is the default one, up to a reset that is under way. -/
structure Tidy (s : System) : Prop where
  count : s.connectedClients = s.clients.countP Counted
  owners : ∀ r ∈ s.requests, s.clients[r.client]? = some .busy
  distinct : (s.requests.map SizeRequest.client).Nodup
  width : s.connectedClients = 0 → .leaving ∉ s.clients → s.activeWidth = defaultSize.width
  height : s.connectedClients = 0 → .leaving ∉ s.clients → .resetting ∉ s.clients →
    s.activeHeight = defaultSize.height

theorem countP_set {α : Type} (p : α → Bool) {l : List α} {place : ℕ} {a : α}
    (h : l[place]? = some a) (b : α) :
    (l.set place b).countP p + (if p a then 1 else 0) =
      l.countP p + (if p b then 1 else 0) := by
  obtain ⟨older, newer, -, heq, -, hset⟩ := split_at_place h
  rw [hset, heq, List.countP_append, List.countP_append, List.countP_cons, List.countP_cons]
  omega

theorem mem_set_of_ne {α : Type} {l : List α} {place : ℕ} {a c : α} (h : l[place]? = some a)
    (hc : c ∈ l) (hne : c ≠ a) (b : α) : c ∈ l.set place b := by
  obtain ⟨older, newer, -, heq, -, hset⟩ := split_at_place h
  rw [hset]
  rw [heq] at hc
  rcases List.mem_append.mp hc with hc | hc
  · exact List.mem_append_left _ hc
  · rcases List.mem_cons.mp hc with hc | hc
    · exact absurd hc hne
    · exact List.mem_append_right _ (List.mem_cons_of_mem _ hc)

theorem Tidy.connected (h : Tidy s) {client : ℕ} {c : ClientPhase}
    (hc : s.clients[client]? = some c) (hcount : Counted c = true) : 0 < s.connectedClients := by
  rw [h.count, List.countP_pos_iff]
  exact ⟨c, List.mem_of_getElem? hc, hcount⟩

theorem Tidy.owners_set (h : Tidy s) {client : ℕ} {c : ClientPhase}
    (hc : s.clients[client]? = some c) (hne : c ≠ .busy) (b : ClientPhase) :
    ∀ r ∈ s.requests, (s.clients.set client b)[r.client]? = some .busy := by
  intro r hr
  have hother : client ≠ r.client := by
    intro heq
    exact hne (Option.some.inj (hc.symm.trans (heq ▸ h.owners r hr)))
  rw [List.getElem?_set_ne hother]
  exact h.owners r hr

theorem Tidy.connect (h : Tidy s) :
    Tidy (next scale host s .connect) := by
  refine ⟨?_, ?_, h.distinct, nofun, nofun⟩
  · show s.connectedClients + 1 = (s.clients ++ [ClientPhase.idle]).countP Counted
    rw [List.countP_append, h.count]
    rfl
  · intro r hr
    have hget := h.owners r hr
    show (s.clients ++ [ClientPhase.idle])[r.client]? = some .busy
    rw [List.getElem?_append_left (List.getElem?_eq_some_iff.mp hget).1]
    exact hget

theorem Tidy.requestSize (h : Tidy s) (client : ℕ) (width height : UInt32)
    (hidle : s.clients[client]? = some .idle) :
    Tidy (next scale host s (.requestSize client width height)) := by
  have hpos := h.connected hidle rfl
  refine ⟨?_, ?_, ?_, fun h0 => absurd h0 hpos.ne', fun h0 => absurd h0 hpos.ne'⟩
  · show s.connectedClients = (s.clients.set client .busy).countP Counted
    have hset := countP_set Counted hidle .busy
    rw [h.count]
    exact (Nat.add_right_cancel hset).symm
  · refine List.forall_mem_append.mpr ⟨h.owners_set hidle (by decide) _, fun r hr => ?_⟩
    rw [List.mem_singleton.mp hr]
    show (s.clients.set client .busy)[client]? = some .busy
    rw [List.getElem?_set_self (List.getElem?_eq_some_iff.mp hidle).1]
  · have hfresh : client ∉ s.requests.map SizeRequest.client := by
      intro hmem
      obtain ⟨r, hr, rfl⟩ := List.mem_map.mp hmem
      cases hidle.symm.trans (h.owners r hr)
    show ((s.requests ++ [_]).map SizeRequest.client).Nodup
    rw [List.map_append]
    refine List.nodup_append.mpr ⟨h.distinct, List.nodup_singleton client, ?_⟩
    rintro a ha b hb rfl
    obtain rfl := List.mem_singleton.mp hb
    exact hfresh ha

theorem Tidy.storeHeight (h : Tidy s) {place : ℕ}
    (hr : ∃ r ∈ s.requests[place]?, r.changed = none) :
    Tidy (next scale host s (.storeHeight place)) := by
  obtain ⟨r, hget, -⟩ := hr
  obtain ⟨older, newer, -, heq, -, hset⟩ := split_at_place hget
  have hnext : next scale host s (.storeHeight place) =
      { s with
        activeHeight := r.size.height
        requests := older ++ r.store s.activeHeight :: newer } := by
    simp only [next, Option.mem_def.mp hget, hset]
  have hr : r ∈ s.requests := List.mem_of_getElem? hget
  have hpos := h.connected (h.owners r hr) rfl
  rw [hnext]
  refine ⟨h.count, ?_, ?_, fun h0 => absurd h0 hpos.ne', fun h0 => absurd h0 hpos.ne'⟩
  · intro q hq
    rcases List.mem_append.mp hq with hq | hq
    · exact h.owners q (heq ▸ List.mem_append_left _ hq)
    · rcases List.mem_cons.mp hq with rfl | hq
      · exact h.owners r hr
      · exact h.owners q (heq ▸ List.mem_append_right _ (List.mem_cons_of_mem _ hq))
  · have hmap : (older ++ r.store s.activeHeight :: newer).map SizeRequest.client =
        s.requests.map SizeRequest.client := by
      rw [heq, List.map_append, List.map_append]
      rfl
    exact hmap ▸ h.distinct

theorem Tidy.forward (h : Tidy s) {place : ℕ}
    (hr : ∃ r ∈ s.requests[place]?, r.changed ≠ none) :
    Tidy (next scale host s (.forward place)) := by
  obtain ⟨r, hget, -⟩ := hr
  obtain ⟨older, newer, -, heq, herase, -⟩ := split_at_place hget
  have hnext : next scale host s (.forward place) =
      { s with
        clients := s.clients.set r.client .idle
        requests := older ++ newer
        resizes := if r.changed = some true then s.resizes ++ [r.size] else s.resizes } := by
    simp only [next, Option.mem_def.mp hget, herase]
  have hr : r ∈ s.requests := List.mem_of_getElem? hget
  have hbusy := h.owners r hr
  have hpos := h.connected hbusy rfl
  have hdistinct := h.distinct
  rw [heq, List.map_append, List.map_cons, List.nodup_middle, List.nodup_cons] at hdistinct
  rw [hnext]
  refine ⟨?_, ?_, ?_, fun h0 => absurd h0 hpos.ne', fun h0 => absurd h0 hpos.ne'⟩
  · show s.connectedClients = (s.clients.set r.client .idle).countP Counted
    rw [h.count]
    exact (Nat.add_right_cancel (countP_set Counted hbusy .idle)).symm
  · intro q hq
    have hother : r.client ≠ q.client := by
      intro hrq
      refine hdistinct.1 ?_
      rw [hrq, ← List.map_append]
      exact List.mem_map_of_mem hq
    show (s.clients.set r.client .idle)[q.client]? = some .busy
    rw [List.getElem?_set_ne hother]
    refine h.owners q ?_
    rw [heq]
    exact (List.mem_append.mp hq).elim (List.mem_append_left _)
      fun hq => List.mem_append_right _ (List.mem_cons_of_mem _ hq)
  · show ((older ++ newer).map SizeRequest.client).Nodup
    rw [List.map_append]
    exact hdistinct.2

theorem Tidy.disconnect (h : Tidy s) {client : ℕ}
    (hidle : s.clients[client]? = some .idle) :
    Tidy (next scale host s (.disconnect client)) := by
  have hpos := h.connected hidle rfl
  have hlt := (List.getElem?_eq_some_iff.mp hidle).1
  refine ⟨?_, h.owners_set hidle (by decide) _, h.distinct, ?_, ?_⟩
  · have hset := countP_set Counted hidle (if s.connectedClients = 1 then .leaving else .gone)
    have hgone : Counted (if s.connectedClients = 1 then .leaving else .gone) = false := by
      by_cases h1 : s.connectedClients = 1
      · rw [if_pos h1]
        rfl
      · rw [if_neg h1]
        rfl
    rw [hgone, ← h.count] at hset
    have hset : _ + 1 = s.connectedClients + 0 := hset
    show s.connectedClients - 1 = (s.clients.set client _).countP Counted
    omega
  · intro h0 hleaving
    have h1 : s.connectedClients = 1 := by
      have h0 : s.connectedClients - 1 = 0 := h0
      omega
    refine absurd ?_ hleaving
    show ClientPhase.leaving ∈ s.clients.set client _
    rw [if_pos h1]
    exact List.mem_set hlt .leaving
  · intro h0 hleaving
    have h1 : s.connectedClients = 1 := by
      have h0 : s.connectedClients - 1 = 0 := h0
      omega
    refine absurd ?_ hleaving
    show ClientPhase.leaving ∈ s.clients.set client _
    rw [if_pos h1]
    exact List.mem_set hlt .leaving

theorem Tidy.resetWidth (h : Tidy s) {client : ℕ}
    (hphase : s.clients[client]? = some .leaving) :
    Tidy (next scale host s (.resetWidth client)) := by
  have hlt := (List.getElem?_eq_some_iff.mp hphase).1
  have hnext : next scale host s (.resetWidth client) =
      { s with
        activeWidth := defaultSize.width
        clients := s.clients.set client .resetting } := rfl
  rw [hnext]
  refine ⟨?_, h.owners_set hphase (by decide) _, h.distinct, fun _ _ => rfl, ?_⟩
  · show s.connectedClients = (s.clients.set client .resetting).countP Counted
    rw [h.count]
    exact (Nat.add_right_cancel (countP_set Counted hphase .resetting)).symm
  · intro _ _ hresetting
    exact absurd (List.mem_set hlt .resetting) hresetting

theorem Tidy.resetHeight (h : Tidy s) {client : ℕ}
    (hphase : s.clients[client]? = some .resetting) :
    Tidy (next scale host s (.resetHeight client)) := by
  have hnext : next scale host s (.resetHeight client) =
      { s with
        activeHeight := defaultSize.height
        clients := s.clients.set client .gone } := rfl
  rw [hnext]
  refine ⟨?_, h.owners_set hphase (by decide) _, h.distinct, ?_, fun _ _ _ => rfl⟩
  · show s.connectedClients = (s.clients.set client .gone).countP Counted
    rw [h.count]
    exact (Nat.add_right_cancel (countP_set Counted hphase .gone)).symm
  · intro h0 hleaving
    exact h.width h0 fun hmem => hleaving (mem_set_of_ne hphase hmem (by decide) .gone)

theorem Tidy.relay (h : Tidy s) :
    Tidy (next scale host s .relay) := by
  cases hres : s.resizes with
  | nil =>
    have hnext : next scale host s .relay = s := by
      simp only [next, hres]
    exact hnext.symm ▸ h
  | cons size resizes =>
    have hnext : next scale host s .relay =
        { s with resizes, encoders := s.encoders.map (.offer size) } := by
      simp only [next, hres]
    rw [hnext]
    exact ⟨h.count, h.owners, h.distinct, h.width, h.height⟩

theorem Tidy.next (h : Tidy s) {event : Event} (henabled : Enabled s event) :
    Tidy (next scale host s event) := by
  cases event with
  | connect => exact h.connect
  | requestSize client width height => exact h.requestSize client width height henabled
  | storeHeight place => exact h.storeHeight henabled
  | forward place => exact h.forward henabled
  | disconnect client => exact h.disconnect henabled
  | resetWidth client => exact h.resetWidth henabled
  | resetHeight client => exact h.resetHeight henabled
  | relay => exact h.relay
  | poll encoder frames => exact ⟨h.count, h.owners, h.distinct, h.width, h.height⟩

theorem Fresh.tidy (h : Fresh s) : Tidy s := by
  have hw : s.activeWidth = defaultSize.width := congrArg PreviewSize.width h.active
  have hh : s.activeHeight = defaultSize.height := congrArg PreviewSize.height h.active
  refine ⟨?_, ?_, ?_, fun _ _ => hw, fun _ _ _ => hh⟩
  · rw [h.connected, h.clients]
    rfl
  · rw [h.requests]
    exact nofun
  · rw [h.requests]
    exact List.nodup_nil

/-- Once all clients are gone the size is the default one. -/
theorem Tidy.default (h : Tidy s) (hg : ∀ c ∈ s.clients, c = .gone) : s.activeSize = defaultSize := by
  have h0 : s.connectedClients = 0 := by
    rw [h.count, List.countP_eq_zero]
    intro c hc
    rw [hg c hc]
    exact nofun
  have hleaving : .leaving ∉ s.clients := fun hmem => nomatch hg _ hmem
  have hresetting : .resetting ∉ s.clients := fun hmem => nomatch hg _ hmem
  rw [System.activeSize, h.width h0 hleaving, h.height h0 hleaving hresetting]

end Departures

/-- In every orderly run from encoders of the default size, the encoders have the active size once
all is drained. In every run that size is the default one again when all clients are gone. -/
theorem preview_sizes_agree {α : Type} {scale : UInt32 → UInt32 → UInt32} {host : PreviewHost}
    {config : ProjectConfig α} {s₀ : System} (h₀ : start config = .ok s₀) :
    ((∀ e ∈ s₀.encoders, e.policy = .dynamic → e.size = defaultSize) →
      ∀ s, Path Enabled (next scale host) Orderly s₀ s → Drained s → Agrees s) ∧
    ∀ s, Path Enabled (next scale host) (fun _ _ => True) s₀ s →
      (∀ c ∈ s.clients, c = .gone) → s.activeSize = defaultSize := by
  have hfresh := start_fresh h₀
  constructor
  · intro hsize s hrun hd
    have ha : Agrees s₀ := fun e he hp => (hsize e he hp).trans hfresh.active.symm
    let P (t : System) : Prop := ∃ stored pending, Following t stored pending
    have hstart : P s₀ := ⟨[], [], hfresh.following ha⟩
    have hinv : P s := by
      refine hrun.invariant hstart ?_
      rintro u event henabled hok ⟨stored, pending, hu⟩
      exact hu.next henabled hok
    obtain ⟨stored, pending, h⟩ := hinv
    exact h.agrees hd
  · intro s hrun hg
    have hinv : Tidy s := hrun.invariant hfresh.tidy fun u event henabled _ hu => hu.next henabled
    exact hinv.default hg

def cameraProject : ProjectConfig ℚ := AcceptedProjects.sampleProject [AcceptedProjects.sampleCamera] []

def quietHost : PreviewHost :=
  { codecs :=
      { av := { decode := fun _ => .error "", sends := fun _ => .ok (), releases := fun _ => 1
                body := fun _ => {} }
        depth := fun _ _ => .error ""
        vpu := { convert := fun _ => .ok (), encode := fun _ _ => .error 0 } }
    colorBackend := fun _ _ _ => .error ""
    render := fun _ _ _ => .error ""
    compress := fun _ _ _ => .error ""
    sink := fun _ _ => .ok () }

/-- `(value as f64 * (1920.0 / max_dim as f64)).round()` on natural numbers. -/
def scaleToMax (maxDim value : UInt32) : UInt32 :=
  UInt32.ofNat ((2 * value.toNat * 1920 + maxDim.toNat) / (2 * maxDim.toNat))

def resized : List Event :=
  [.connect, .requestSize 0 640 480, .storeHeight 0, .forward 0, .relay, .poll 0 []]

def departed : List Event := [.disconnect 0, .resetWidth 0, .resetHeight 0]

theorem resized_agrees :
    cameraProject.validate AcceptedProjects.rationals = .ok () ∧
      ∃ s₀, start cameraProject = .ok s₀ ∧
        Agrees (resized.foldl (next scaleToMax quietHost) s₀) ∧
        ((resized ++ departed).foldl (next scaleToMax quietHost) s₀).activeSize = defaultSize := by
  refine ⟨by decide +kernel, _, rfl, ?_, ?_⟩
  · exact (@preview_sizes_agree ℚ _ _ cameraProject _ rfl).1 (by decide +kernel) _
      (path_of_follows (by decide +kernel)) ⟨by decide +kernel, by decide +kernel,
        by decide +kernel, by decide +kernel⟩
  · exact (@preview_sizes_agree ℚ _ _ cameraProject _ rfl).2 _
      (@path_of_follows _ _ _ _ (fun _ _ => True) _ _ (by decide +kernel)) (by decide +kernel)

/-- When the last client has left, the encoder keeps the size it had asked for. -/
theorem departed_not_agrees :
    cameraProject.validate AcceptedProjects.rationals = .ok () ∧
      ∃ s₀ s, start cameraProject = .ok s₀ ∧
        (∀ e ∈ s₀.encoders, e.policy = .dynamic ∧ e.size = defaultSize) ∧
        Path Enabled (next scaleToMax quietHost) (fun _ _ => True) s₀ s ∧ Drained s ∧
        ¬ Agrees s := by
  refine ⟨by decide +kernel, _, (resized ++ departed).foldl (next scaleToMax quietHost) _, rfl,
    by decide +kernel, path_of_follows (by decide +kernel), ⟨by decide +kernel, by decide +kernel,
      by decide +kernel, by decide +kernel⟩, ?_⟩
  unfold Agrees
  decide +kernel

end PreviewAgreement
