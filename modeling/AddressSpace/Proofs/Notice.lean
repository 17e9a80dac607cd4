import AddressSpace.Notice
import AddressSpace.Text.Utf8

/-!
How the messages of faults open. A fault of the configuration opens with the words of its notice and shows
its details behind them as they are; a fault of an encoding opens with a quote.
-/

namespace AddressSpace

namespace Text

theorem ofString_append (a b : String) : ofString (a ++ b) = ofString a ++ ofString b := by
  simp [ofString, ofChars]

@[simp]
theorem Layout.placeText_default (t : Text) : ({} : Layout).placeText t = t := by
  simp [placeText, missing]

theorem Utf8.Fault.head?_message (f : Utf8.Fault) :
    (ofString f.message).head? = some (.char '\'') := by
  unfold message
  extract_lets octets
  -- What is shown does not matter for how the message opens.
  generalize octets = shown
  rw [ofString_append, ofString_append, ofString_append]
  rfl

theorem Utf8.WriteFault.head?_message (f : Utf8.WriteFault) :
    (ofString f.message).head? = some (.char '\'') := by
  unfold message
  extract_lets points
  generalize points = shown
  rw [ofString_append, ofString_append]
  rfl

end Text

theorem Notice.withDetails_configuration (details : Text) :
    Notice.configuration.withDetails details = "Pool configuration error: " ++ details := by
  have h : Text.Template.render (fun _ => .text details) [.field "details" .plain]
      = ({} : Text.Layout).placeText details ++ [] := rfl
  simp only [withDetails, template, Text.Template.render, h, Text.Layout.placeText_default,
    List.append_nil]

end AddressSpace
