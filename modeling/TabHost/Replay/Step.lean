import TabHost.Wire.Message

/-!
# Steps of a replay

A replay script holds one step per line. `Step.parse` reads the text of one line: a blank
line and a line that starts with `#` hold no step.
-/

namespace TabHost

open Fields (required optional)

/-- One step of a replay. -/
inductive Step where
  /-- Creates a tab whose content takes a time of `cost` for every event. -/
  | createTab (tab : TabId) (visible : Bool) (cost : Duration)
  | send (e : Envelope)
  | addBlocker (tab : TabId)
  | removeBlocker (tab : TabId)
  | destroy (tab : TabId)
  /-- Lets time pass. -/
  | advance (time : Duration)
  /-- Lets the tabs work until there is nothing left to do. -/
  | run

namespace Step

def variants : Decode.Variants Step :=
  [("create_tab", .fields (createTab <$> required "tab" TabId.decode
      <*> optional "visible" Decode.bool false
      <*> optional "dispatch_cost" Duration.decode .zero)),
    ("send", .fields (send <$> Envelope.fields)),
    ("add_blocker", .fields (addBlocker <$> required "tab" TabId.decode)),
    ("remove_blocker", .fields (removeBlocker <$> required "tab" TabId.decode)),
    ("destroy", .fields (destroy <$> required "tab" TabId.decode)),
    ("advance", .fields (advance <$> required "by" Duration.decode)),
    ("run", .nothing .run)]

def decode : Decoder Step := Decode.tagged "step" variants

/-- The step that a line holds, if it holds one. -/
def parse (line : List Char) : Except DecodeError (Option Step) :=
  let cs := Text.trim line
  if cs.isEmpty || cs.head? = some '#' then .ok none
  else (Decode.text decode cs).map some

end Step

end TabHost
