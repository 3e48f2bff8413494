import Rollio.ControlClients
import Rollio.JsonFields
import Rollio.PairingValidity
import Rollio.SetupCommands

/-! What clients of the control server send to the setup wizard: the server looks at two fields of
a text and forwards it, the bus carries at most 4096 bytes of it, and the wizard decodes what it
gets into a stricter type. -/
namespace ForwardedCommands
open BusMessages SetupState SetupCommands JsonFields
open ControlClients (ControlServerRole)

structure SerdeJson where
  parse : String → Option JsonText
  describe : String → String

structure Command where
  msgType : String
  action : String
  deriving DecidableEq, Repr

def Command.decode : JsonText → Option Command
  | .object members => do
    let msgType ← requiredMember JsonValue.asString members "type"
    let action ← requiredMember JsonValue.asString members "action"
    some { msgType, action }
  | .array [first, second] => do
    let msgType ← first.asString
    let action ← second.asString
    some { msgType, action }
  | _ => none

def decodeCommand (serde : SerdeJson) (text : String) : Option Command := do
  let cmd ← (serde.parse text).bind Command.decode
  if cmd.msgType = "command" then some cmd else none

def decodeEpisodeCommand (action : String) : Option EpisodeCommand :=
  [EpisodeCommand.start, .stop, .keep, .discard].find? fun command => command.asStr = action

inductive UiCommand where
  | setup (payload : String)
  | episode (command : EpisodeCommand)
  deriving DecidableEq, Repr

def handleText (serde : SerdeJson) (text : String) : Option UiCommand := do
  let cmd ← decodeCommand serde text
  if "setup_".toList.isPrefixOf cmd.action.toList then some (.setup text)
  else (decodeEpisodeCommand cmd.action).map .episode

abbrev SetupCommandMessage := FixedString 4096

inductive Published where
  | setupCommand (message : SetupCommandMessage)
  | episodeCommand (command : EpisodeCommand)
  deriving DecidableEq

/-- A command of the other role is ignored. -/
def publishCommand : ControlServerRole → UiCommand → Option Published
  | .setup, .setup payload => some (.setupCommand (.new 4096 payload))
  | .collect, .episode command => some (.episodeCommand command)
  | .setup, .episode _ => none
  | .collect, .setup _ => none

def forwarded (serde : SerdeJson) (text : String) : Option SetupCommandMessage :=
  match (handleText serde text).bind (publishCommand .setup) with
  | some (.setupCommand message) => some message
  | _ => none

def asUsize (v : JsonValue) : Option ℕ := (v.asInteger 0 18446744073709551615).map Int.toNat

def asI32 (v : JsonValue) : Option ℤ := v.asInteger (-2147483648) 2147483647

/-- The wizard's own type names more members than the server's. -/
def decodeEnvelope : JsonText → Option SetupCommandEnvelope
  | .object members => do
    let msgType ← requiredMember JsonValue.asString members "type"
    let action ← requiredMember JsonValue.asString members "action"
    let name ← optionalMember JsonValue.asString members "name"
    let index ← optionalMember asUsize members "index"
    let delta ← optionalMember asI32 members "delta"
    let value ← optionalMember JsonValue.asString members "value"
    let field ← optionalMember JsonValue.asString members "field"
    some { msgType, action, name, index, delta, value, field }
  | .array [first, second, third, fourth, fifth, sixth, seventh] => do
    let msgType ← first.asString
    let action ← second.asString
    let name ← third.asOption JsonValue.asString
    let index ← fourth.asOption asUsize
    let delta ← fifth.asOption asI32
    let value ← sixth.asOption JsonValue.asString
    let field ← seventh.asOption JsonValue.asString
    some { msgType, action, name, index, delta, value, field }
  | _ => none

inductive CommandError where
  | undecodable (message : String)
  | handler (message : String)
  deriving DecidableEq, Repr

variable {α : Type} (serde : SerdeJson) (floats : Floats α)
  (store : ProjectConfigs.ProjectConfig α → String → Except String Unit)

def applyText (s : SetupSession α) (raw : String) : Except CommandError (Applied α) :=
  match (serde.parse raw).bind decodeEnvelope with
  | none => .error (.undecodable (serde.describe raw))
  | some command => (applyRawCommand floats store s (.ok command)).mapError .handler

/-- A message on the bus, with the text that it was made from. -/
structure Flight where
  text : String
  message : SetupCommandMessage

structure Wizard (α : Type) where
  session : SetupSession α
  inFlight : List Flight := []
  applied : List (String × String) := []
  ended : Option CommandError := none

def Wizard.receive (w : Wizard α) (text : String) : Wizard α :=
  match forwarded serde text with
  | some message => { w with inFlight := w.inFlight ++ [{ text, message }] }
  | none => w

def Wizard.applyDrained (w : Wizard α) : List Flight → Wizard α
  | [] => w
  | f :: rest =>
    let raw := f.message.asStr
    let called := { w with applied := w.applied ++ [(f.text, raw)] }
    match applyText serde floats store w.session raw with
    | .error e => { called with ended := some e }
    | .ok outcome => { called with session := outcome.session }.applyDrained rest

inductive Step (sent : String → Prop) : Wizard α → Wizard α → Prop where
  | text {w} (text : String) : sent text → Step sent w (w.receive serde text)
  | lost {w} (i : ℕ) : Step sent w { w with inFlight := w.inFlight.eraseIdx i }
  | drained {w} (k : ℕ) : w.ended = none →
      Step sent w ({ w with inFlight := w.inFlight.drop k }.applyDrained serde floats store
        (w.inFlight.take k))
  | loop {w s'} : w.ended = none → LoopChange w.session s' → Step sent w { w with session := s' }

inductive Run (sent : String → Prop) (opened : SetupSession α) : Wizard α → Prop where
  | opened : Run sent opened { session := opened }
  | step {w w'} : Run sent opened w → Step serde floats store sent w w' → Run sent opened w'

/-- What is applied is what a client has sent, and no command ends the loop by not decoding. -/
structure Unharmed (w : Wizard α) : Prop where
  verbatim : ∀ call ∈ w.applied, call.2 = call.1
  decoded : ∀ message, w.ended ≠ some (.undecodable message)

/-- The members that only the wizard reads are of their types. -/
structure WellTyped (members : List (String × JsonValue)) : Prop where
  name : Fits JsonValue.asString members "name"
  index : Fits asUsize members "index"
  delta : Fits asI32 members "delta"
  value : Fits JsonValue.asString members "value"
  field : Fits JsonValue.asString members "field"

/-- A text that is not forwarded, or fits the bus and the wizard's type. -/
def Harmless (text : String) : Prop :=
  (forwarded serde text).isSome → text.utf8ByteSize ≤ 4096 ∧
    ∃ members, serde.parse text = some (.object members) ∧ WellTyped members

variable {serde floats store} {sent : String → Prop} {opened : SetupSession α} {text : String}

theorem forwarded_eq_some {message : SetupCommandMessage}
    (h : forwarded serde text = some message) :
    message = .new 4096 text ∧ ∃ doc cmd, serde.parse text = some doc ∧ Command.decode doc = some cmd := by
  simp only [forwarded] at h
  split at h
  · next heq =>
    cases h
    obtain ⟨command, hcommand, hpublished⟩ := Option.bind_eq_some_iff.mp heq
    simp only [handleText, Option.bind_eq_bind, Option.bind_eq_some_iff] at hcommand
    obtain ⟨cmd, hdecoded, hcommand⟩ := hcommand
    simp only [decodeCommand, Option.bind_eq_bind, Option.bind_eq_some_iff] at hdecoded
    obtain ⟨cmd', ⟨doc, hdoc, hcmd⟩, -⟩ := hdecoded
    refine ⟨?_, doc, cmd', hdoc, hcmd⟩
    split at hcommand
    · cases hcommand
      cases hpublished
      rfl
    · obtain ⟨episode, -, rfl⟩ := Option.map_eq_some_iff.mp hcommand
      cases hpublished
  · cases h

theorem decodeEnvelope_isSome_iff {doc : JsonText} {cmd : Command}
    (h : Command.decode doc = some cmd) :
    (decodeEnvelope doc).isSome ↔ ∃ members, doc = .object members ∧ WellTyped members := by
  cases doc with
  | object members =>
    simp only [Command.decode, Option.bind_eq_bind, Option.bind_eq_some_iff] at h
    obtain ⟨msgType, hmsgType, action, haction, -⟩ := h
    simp only [decodeEnvelope, hmsgType, haction, Option.bind_eq_bind, Option.bind_some]
    constructor
    · intro hsome
      obtain ⟨envelope, henvelope⟩ := Option.isSome_iff_exists.mp hsome
      simp only [Option.bind_eq_some_iff] at henvelope
      obtain ⟨name, hname, index, hindex, delta, hdelta, value, hvalue, field, hfield, -⟩ :=
        henvelope
      refine ⟨members, rfl, ?_⟩
      constructor <;> rw [← optionalMember_isSome_iff]
      · rw [hname]; rfl
      · rw [hindex]; rfl
      · rw [hdelta]; rfl
      · rw [hvalue]; rfl
      · rw [hfield]; rfl
    · rintro ⟨_, hobject, htyped⟩
      cases hobject
      obtain ⟨name, hname⟩ := Option.isSome_iff_exists.mp (optionalMember_isSome_iff.mpr htyped.name)
      obtain ⟨index, hindex⟩ :=
        Option.isSome_iff_exists.mp (optionalMember_isSome_iff.mpr htyped.index)
      obtain ⟨delta, hdelta⟩ :=
        Option.isSome_iff_exists.mp (optionalMember_isSome_iff.mpr htyped.delta)
      obtain ⟨value, hvalue⟩ :=
        Option.isSome_iff_exists.mp (optionalMember_isSome_iff.mpr htyped.value)
      obtain ⟨field, hfield⟩ :=
        Option.isSome_iff_exists.mp (optionalMember_isSome_iff.mpr htyped.field)
      simp only [hname, hindex, hdelta, hvalue, hfield, Option.bind_some, Option.isSome_some]
  | array items =>
    -- Two items are a command and seven an envelope.
    simp only [reduceCtorEq, false_and, exists_false, iff_false]
    intro hsome
    match items, h, hsome with
    | [_, _], _, hsome => exact absurd hsome (by simp [decodeEnvelope])
  | other => cases h

structure Arrives (serde : SerdeJson) (text : String) : Prop where
  intact : (FixedString.new 4096 text).asStr = text
  decodes : ((serde.parse text).bind decodeEnvelope).isSome

theorem arrives_iff {message : SetupCommandMessage} (h : forwarded serde text = some message) :
    Arrives serde text ↔ text.utf8ByteSize ≤ 4096 ∧
      ∃ members, serde.parse text = some (.object members) ∧ WellTyped members := by
  obtain ⟨-, doc, cmd, hdoc, hcmd⟩ := forwarded_eq_some h
  have hdecodes := decodeEnvelope_isSome_iff hcmd
  constructor
  · rintro ⟨hintact, hsome⟩
    rw [hdoc, Option.bind_some, hdecodes] at hsome
    obtain ⟨members, rfl, htyped⟩ := hsome
    constructor
    · rw [← hintact]
      exact FixedString.utf8ByteSize_asStr_le _
    · exact ⟨members, hdoc, htyped⟩
  · rintro ⟨hsize, members, hmembers, htyped⟩
    cases hdoc.symm.trans hmembers
    constructor
    · exact FixedString.asStr_new hsize
    · rw [hdoc, Option.bind_some, hdecodes]
      exact ⟨members, rfl, htyped⟩

theorem harmless_iff : Harmless serde text ↔
    ((forwarded serde text).isSome → Arrives serde text) := by
  constructor
  · intro h hforwarded
    obtain ⟨message, hmessage⟩ := Option.isSome_iff_exists.mp hforwarded
    exact (arrives_iff hmessage).mpr (h hforwarded)
  · intro h hforwarded
    obtain ⟨message, hmessage⟩ := Option.isSome_iff_exists.mp hforwarded
    exact (arrives_iff hmessage).mp (h hforwarded)

theorem applyText_decodes {s : SetupSession α} {raw : String}
    (h : ((serde.parse raw).bind decodeEnvelope).isSome) (message : String) :
    applyText serde floats store s raw ≠ .error (.undecodable message) := by
  obtain ⟨command, hcommand⟩ := Option.isSome_iff_exists.mp h
  simp only [applyText, hcommand]
  cases applyRawCommand floats store s (.ok command) with
  | ok outcome => rintro ⟨⟩
  | error e => rintro ⟨⟩

structure Flight.Sound (serde : SerdeJson) (f : Flight) : Prop where
  made : f.message = .new 4096 f.text
  arrives : Arrives serde f.text

theorem Flight.Sound.asStr {f : Flight} (h : f.Sound serde) : f.message.asStr = f.text := by
  rw [h.made]
  exact h.arrives.intact

theorem applyDrained_inFlight (fs : List Flight) (w : Wizard α) :
    (w.applyDrained serde floats store fs).inFlight = w.inFlight := by
  induction fs generalizing w with
  | nil => rfl
  | cons f rest ih =>
    simp only [Wizard.applyDrained]
    split
    · rfl
    · rw [ih]

theorem Unharmed.applyDrained {fs : List Flight} {w : Wizard α} (h : Unharmed w)
    (hfs : ∀ f ∈ fs, f.Sound serde) : Unharmed (w.applyDrained serde floats store fs) := by
  induction fs generalizing w with
  | nil => exact h
  | cons f rest ih =>
    have hf := hfs f List.mem_cons_self
    have hcalls : ∀ call ∈ w.applied ++ [(f.text, f.message.asStr)], call.2 = call.1 := by
      intro call hcall
      obtain hold | hnew := List.mem_append.mp hcall
      · exact h.verbatim call hold
      · cases List.mem_singleton.mp hnew
        exact hf.asStr
    simp only [Wizard.applyDrained]
    split
    · next e he =>
      constructor
      · exact hcalls
      · rintro message ⟨⟩
        have hdecodes := hf.arrives.decodes
        rw [← hf.asStr] at hdecodes
        exact applyText_decodes hdecodes message he
    · exact ih ⟨hcalls, h.decoded⟩ fun f hf => hfs f (List.mem_cons_of_mem _ hf)

structure Invariant (serde : SerdeJson) (w : Wizard α) : Prop where
  unharmed : Unharmed w
  sound : ∀ f ∈ w.inFlight, f.Sound serde

theorem Invariant.receive {w : Wizard α} (h : Invariant serde w) (htext : Harmless serde text) :
    Invariant serde (w.receive serde text) := by
  simp only [Wizard.receive]
  split
  · next message hmessage =>
    constructor
    · exact ⟨h.unharmed.verbatim, h.unharmed.decoded⟩
    · intro f hf
      obtain hold | hnew := List.mem_append.mp hf
      · exact h.sound f hold
      · cases List.mem_singleton.mp hnew
        have harrives := harmless_iff.mp htext (hmessage ▸ rfl)
        exact ⟨(forwarded_eq_some hmessage).1, harrives⟩
  · exact h

theorem Invariant.step {w w' : Wizard α} (h : Invariant serde w)
    (hsent : ∀ text, sent text → Harmless serde text)
    (hs : Step serde floats store sent w w') : Invariant serde w' := by
  cases hs with
  | text text ht => exact h.receive (hsent text ht)
  | lost i => exact ⟨⟨h.unharmed.verbatim, h.unharmed.decoded⟩,
      fun f hf => h.sound f (List.mem_of_mem_eraseIdx hf)⟩
  | drained k hrunning =>
    constructor
    · have hunharmed : Unharmed { w with inFlight := w.inFlight.drop k } :=
        ⟨h.unharmed.verbatim, h.unharmed.decoded⟩
      apply hunharmed.applyDrained
      intro f hf
      exact h.sound f (List.mem_of_mem_take hf)
    · intro f hf
      rw [applyDrained_inFlight] at hf
      exact h.sound f (List.mem_of_mem_drop hf)
  | loop hrunning hchange => exact ⟨⟨h.unharmed.verbatim, h.unharmed.decoded⟩, h.sound⟩

theorem Run.invariant {w : Wizard α} (h : Run serde floats store sent opened w)
    (hsent : ∀ text, sent text → Harmless serde text) : Invariant serde w := by
  induction h with
  | opened => exact ⟨⟨by simp, by simp⟩, by simp⟩
  | step _ hs ih => exact ih.step hsent hs

/-- One text and one turn show what becomes of it. -/
theorem arrives_of_unharmed (hsent : sent text) (hforwarded : (forwarded serde text).isSome)
    (h : ∀ w, Run serde floats store sent opened w → Unharmed w) : Arrives serde text := by
  obtain ⟨message, hmessage⟩ := Option.isSome_iff_exists.mp hforwarded
  have hreceived : Run serde floats store sent opened
      { session := opened, inFlight := [{ text, message }] } := by
    have hreceive : Wizard.receive serde { session := opened } text =
        { session := opened, inFlight := [{ text, message }] } := by
      simp only [Wizard.receive, hmessage, List.nil_append]
    rw [← hreceive]
    exact .step .opened (.text text hsent)
  have hunharmed := h _ (hreceived.step (.drained 1 rfl))
  have hmade := (forwarded_eq_some hmessage).1
  have hintact : message.asStr = text := by
    apply hunharmed.verbatim (text, message.asStr)
    simp only [List.take_succ_cons, Wizard.applyDrained]
    split <;> simp [Wizard.applyDrained]
  constructor
  · rw [← hmade]
    exact hintact
  · by_contra hnone
    rw [Bool.not_eq_true, Option.isSome_eq_false_iff, Option.isNone_iff_eq_none, ← hintact] at hnone
    apply hunharmed.decoded (serde.describe message.asStr)
    simp only [List.take_succ_cons, Wizard.applyDrained, applyText, hnone]

/-- Clients that may send certain texts leave the wizard unharmed exactly if each of these texts
is not forwarded, or fits the bus and the wizard's type. -/
theorem texts_unharmed_iff (serde : SerdeJson) (floats : Floats α)
    (store : ProjectConfigs.ProjectConfig α → String → Except String Unit)
    (sent : String → Prop) (opened : SetupSession α) :
    (∀ w, Run serde floats store sent opened w → Unharmed w) ↔
      ∀ text, sent text → Harmless serde text := by
  constructor
  · intro h text hsent
    exact harmless_iff.mpr fun hforwarded => arrives_of_unharmed hsent hforwarded h
  · intro h w hw
    exact (hw.invariant h).unharmed

/-- A step of three thousand million, beyond an `i32`. -/
def wideDelta : String :=
  "\x7b\"type\":\"command\",\"action\":\"setup_get_state\",\"delta\":3000000000\x7d"

def wideSerde : SerdeJson :=
  { parse := fun text =>
      if text = wideDelta then
        some (.object [("type", .string "command"), ("action", .string "setup_get_state"),
          ("delta", .number (some 3000000000))])
      else none
    describe := fun _ => "invalid value: integer" }

/-- It is forwarded, and ends the wizard. -/
theorem wide_delta_ends_wizard :
    ¬ ∀ w, Run wideSerde PairingValidity.rationalFloats (fun _ _ => .ok ()) (fun _ => True)
      PairingValidity.pickedSession w → Unharmed w := by
  intro h
  have hparsed : wideSerde.parse wideDelta =
      some (.object [("type", .string "command"), ("action", .string "setup_get_state"),
        ("delta", .number (some 3000000000))]) := by simp [wideSerde]
  have hforwarded : (forwarded wideSerde wideDelta).isSome := by
    simp only [forwarded, handleText, decodeCommand, hparsed]
    decide
  have harrives := arrives_of_unharmed True.intro hforwarded h
  have hdecodes := harrives.decodes
  rw [hparsed] at hdecodes
  exact absurd hdecodes (by decide)

end ForwardedCommands
