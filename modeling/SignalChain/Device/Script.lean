import SignalChain.Device.Port

/-!
# Scripted sensors

A script is a sensor that plays back conversions. When there are none left, it fails to convert.
-/

namespace SignalChain

/-- A sensor that plays back conversions. -/
structure Script where
  /-- The conversions to come. -/
  entries : List Conversion
  /-- Whether a conversion has left the script empty or found it so. -/
  ranOut : Bool := false

namespace Script

/-- Play back the next conversion. -/
def convert (s : Script) : Conversion × Script :=
  match s.entries with
  | [] => ({ outcome := .error .readFailed }, { s with ranOut := true })
  | c :: rest => (c, { entries := rest, ranOut := s.ranOut || rest.isEmpty })

/-- Add a conversion at the end. -/
def append (s : Script) (c : Conversion) : Script :=
  { s with entries := s.entries ++ [c] }

instance : Sensor Script where
  convert := convert

end Script

end SignalChain
