import Rollio.DerivedConfigs
import Rollio.SeparatedNames

/-! The topics of a channel: its place on the bus, which is the bus root and the channel type,
followed by the name of the stream. -/
namespace TopicNames
open RuntimeConfig DerivedConfigs EncoderConfigs SeparatedNames

inductive Stream where
  | frames | recordingPackets
  | preview (mode : PreviewOutputMode)
  | state (kind : RobotStateKind)
  | command (kind : RobotCommandKind)
  deriving DecidableEq, Repr

def Stream.group : Stream → Option String
  | .state _ => some "states"
  | .command _ => some "commands"
  | _ => none

def Stream.word : Stream → String
  | .frames => "frames"
  | .recordingPackets => "recording-packets"
  | .preview .encoded => "preview-packets"
  | .preview .jpeg => "preview-jpeg"
  | .state kind => kind.topicSuffix
  | .command kind => kind.topicSuffix

def topic (place : String) (stream : Stream) : String :=
  match stream.group with
  | none => place ++ "/" ++ stream.word
  | some group => place ++ "/" ++ group ++ "/" ++ stream.word

theorem framesTopic_eq (busRoot channelType : String) :
    cameraFramesTopicV2 busRoot channelType = topic (channelPrefixV2 busRoot channelType) .frames := by
  simp only [cameraFramesTopicV2, topic, Stream.group, Stream.word, String.append_assoc]
  rfl

theorem recordingTopic_eq (busRoot channelType : String) :
    recordingPacketServiceName busRoot channelType =
      topic (channelPrefixV2 busRoot channelType) .recordingPackets := by
  simp only [recordingPacketServiceName, topic, Stream.group, Stream.word, channelPrefixV2,
    String.append_assoc]
  rfl

theorem stateTopic_eq (busRoot channelType : String) (kind : RobotStateKind) :
    robotStateTopicV2 busRoot channelType kind =
      topic (channelPrefixV2 busRoot channelType) (.state kind) := by
  simp only [robotStateTopicV2, topic, Stream.group, Stream.word, String.append_assoc]
  rfl

theorem commandTopic_eq (busRoot channelType : String) (kind : RobotCommandKind) :
    robotCommandTopicV2 busRoot channelType kind =
      topic (channelPrefixV2 busRoot channelType) (.command kind) := by
  simp only [robotCommandTopicV2, topic, Stream.group, Stream.word, String.append_assoc]
  rfl

def previewTopic (mode : PreviewOutputMode) (busRoot channelType : String) : String :=
  match mode with
  | .encoded => previewPacketServiceName busRoot channelType
  | .jpeg => previewJpegServiceName busRoot channelType

theorem previewTopic_eq (mode : PreviewOutputMode) (busRoot channelType : String) :
    previewTopic mode busRoot channelType =
      topic (channelPrefixV2 busRoot channelType) (.preview mode) := by
  cases mode with
  | encoded =>
    simp only [previewTopic, previewPacketServiceName, topic, Stream.group, Stream.word,
      channelPrefixV2, String.append_assoc]
    rfl
  | jpeg =>
    simp only [previewTopic, previewJpegServiceName, topic, Stream.group, Stream.word,
      channelPrefixV2, String.append_assoc]
    rfl

def parent (place : String) (stream : Stream) : List Char :=
  match stream.group with
  | none => place.toList
  | some group => place.toList ++ '/' :: group.toList

theorem topic_toList (place : String) (stream : Stream) :
    (topic place stream).toList = parent place stream ++ '/' :: stream.word.toList := by
  have hslash : "/".toList = ['/'] := by decide
  unfold topic parent
  cases stream.group with
  | none => simp only [String.toList_append, hslash, List.append_assoc, List.singleton_append]
  | some group =>
    simp only [String.toList_append, hslash, List.append_assoc, List.cons_append,
      List.nil_append]

theorem state_no_slash (kind : RobotStateKind) : '/' ∉ kind.topicSuffix.toList := by
  cases kind <;> decide

theorem command_no_slash (kind : RobotCommandKind) : '/' ∉ kind.topicSuffix.toList := by
  cases kind <;> decide

theorem word_no_slash (stream : Stream) : '/' ∉ stream.word.toList := by
  cases stream with
  | frames => decide
  | recordingPackets => decide
  | preview mode => cases mode <;> decide
  | state kind => exact state_no_slash kind
  | command kind => exact command_no_slash kind

theorem group_no_slash {stream : Stream} {group : String} (h : stream.group = some group) :
    '/' ∉ group.toList := by
  cases stream with
  | state kind => obtain rfl := Option.some.inj h; decide
  | command kind => obtain rfl := Option.some.inj h; decide
  | frames => cases h
  | recordingPackets => cases h
  | preview mode => cases h

theorem stateSuffix_injective {k k' : RobotStateKind} (h : k.topicSuffix = k'.topicSuffix) :
    k = k' := by
  revert h
  cases k <;> cases k' <;> decide

theorem commandSuffix_injective {k k' : RobotCommandKind} (h : k.topicSuffix = k'.topicSuffix) :
    k = k' := by
  revert h
  cases k <;> cases k' <;> decide

/-- No stream outside a group is called like one inside. -/
theorem word_ungrouped {s s' : Stream} {group : String} (h : s.group = none)
    (h' : s'.group = some group) : s.word ≠ s'.word := by
  cases s with
  | state kind => cases h
  | command kind => cases h
  | frames => cases s' with
    | state kind => cases kind <;> decide
    | command kind => cases kind <;> decide
    | _ => cases h'
  | recordingPackets => cases s' with
    | state kind => cases kind <;> decide
    | command kind => cases kind <;> decide
    | _ => cases h'
  | preview mode => cases s' with
    | state kind => cases mode <;> cases kind <;> decide
    | command kind => cases mode <;> cases kind <;> decide
    | _ => cases h'

theorem stream_ext {s s' : Stream} (hg : s.group = s'.group) (hw : s.word = s'.word) : s = s' := by
  cases s with
  | frames => cases s' with
    | frames => rfl
    | recordingPackets => revert hw; decide
    | preview mode => revert hw; cases mode <;> decide
    | _ => cases hg
  | recordingPackets => cases s' with
    | frames => revert hw; decide
    | recordingPackets => rfl
    | preview mode => revert hw; cases mode <;> decide
    | _ => cases hg
  | preview mode => cases s' with
    | frames => revert hw; cases mode <;> decide
    | recordingPackets => revert hw; cases mode <;> decide
    | preview mode' => revert hw; cases mode <;> cases mode' <;> decide
    | _ => cases hg
  | state kind => cases s' with
    | state kind' => exact congrArg _ (stateSuffix_injective hw)
    | command kind' => exact absurd (Option.some.inj hg) (by decide)
    | _ => cases hg
  | command kind => cases s' with
    | command kind' => exact congrArg _ (commandSuffix_injective hw)
    | state kind' => exact absurd (Option.some.inj hg) (by decide)
    | _ => cases hg

/-- A topic names one place and one stream. -/
theorem topic_injective {place place' : String} {s s' : Stream}
    (h : topic place s = topic place' s') : place = place' ∧ s = s' := by
  have hl := congrArg String.toList h
  rw [topic_toList, topic_toList, last_separator (word_no_slash s) (word_no_slash s'),
    String.toList_inj] at hl
  obtain ⟨hp, hw⟩ := hl
  cases hg : s.group with
  | none => cases hg' : s'.group with
    | none =>
      simp only [parent, hg, hg', String.toList_inj] at hp
      exact ⟨hp, stream_ext (hg.trans hg'.symm) hw⟩
    | some group' => exact absurd hw (word_ungrouped hg hg')
  | some group => cases hg' : s'.group with
    | none => exact absurd hw.symm (word_ungrouped hg' hg)
    | some group' =>
      simp only [parent, hg, hg', last_separator (group_no_slash hg) (group_no_slash hg'),
        String.toList_inj] at hp
      obtain ⟨hp, rfl⟩ := hp
      exact ⟨hp, stream_ext (hg.trans hg'.symm) hw⟩

end TopicNames
