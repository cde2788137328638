import Patchbay.Exchange.Meter
import Patchbay.Sound.Data

/-! The final report of a demo, as lines of text or as structured data. -/

namespace Patchbay

structure Report where
  demo : String
  ticks : Nat
  buffers : Nat
  gain : Option Sample := none
  rms : Option Sample := none
  inputLevel : Option Sample := none
  meters : MeterSnapshot

namespace Report

def number (x : Sample) : Json := .number (NumberStyle.reported.write x)

def member (name : String) (x : Option Sample) : List (String × Json) :=
  (x.map fun x => (name, number x)).toList

def toJson (r : Report) : Json :=
  .object ([("demo", .string r.demo), ("ticks", .ofNat r.ticks), ("buffers", .ofNat r.buffers)]
    ++ member "gain" r.gain ++ member "rms" r.rms ++ member "input_level" r.inputLevel
    ++ [("meters", .object [("frames_mixed", .ofNat r.meters.framesMixed),
      ("peak_left", number r.meters.peakLeft), ("peak_right", number r.meters.peakRight),
      ("clipped", .bool r.meters.clipped)])])

def line (label : String) (places : Nat) (x : Option Sample) : List String :=
  (x.map fun x => label ++ x.toFixed places).toList

def metersLine (m : MeterSnapshot) : String :=
  "meters:   " ++ toString m.framesMixed ++ " frames, peak L " ++ m.peakLeft.toFixed 3 ++ " R "
    ++ m.peakRight.toFixed 3 ++ if m.clipped then ", clipped" else ""

def toLines (r : Report) : List String :=
  ["demo:     " ++ r.demo, "ticks:    " ++ toString r.ticks, "buffers:  " ++ toString r.buffers]
    ++ line "gain:     " 3 r.gain ++ line "rms:      " 4 r.rms ++ line "input:    " 4 r.inputLevel
    ++ [metersLine r.meters]

end Report

end Patchbay
