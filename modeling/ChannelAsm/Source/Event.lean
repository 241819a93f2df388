/-!
# Event labels

An event is opened by a label, a word that starts with `event_`. `Event.label` completes the name
of an event to its label; `label_of_isLabel` and `isLabel_label` say that it leaves labels alone
and always makes one, so it is idempotent.
-/

namespace ChannelAsm.Event

/-- What every label starts with. -/
def marker : String := "event_"

/-- A word is a label when it starts with the marker. -/
def isLabel (word : String) : Bool :=
  marker.toList.isPrefixOf word.toList

/-- The label of a named event: the name itself when it is a label already. -/
def label (name : String) : String :=
  if isLabel name then name else marker ++ name

/-- A label names itself. -/
theorem label_of_isLabel {name : String} (h : isLabel name = true) : label name = name :=
  if_pos h

/-- The marker in front of any name is a label. -/
theorem isLabel_marker_append (name : String) : isLabel (marker ++ name) = true := by
  simp [isLabel, String.toList_append]

/-- Completing a name always gives a label. -/
theorem isLabel_label (name : String) : isLabel (label name) = true := by
  unfold label
  split
  · assumption
  · exact isLabel_marker_append name

/-- Completing a label again changes nothing. -/
theorem label_label (name : String) : label (label name) = label name :=
  label_of_isLabel (isLabel_label name)

end ChannelAsm.Event
