import Kubebpfbox.Lib.GoMap
import Kubebpfbox.Lib.GoString
import Mathlib.Data.Rat.Defs

/-!
# Metrics (`internal/metric/metric.go`)

A metric is a measurement name with tags and fields.  A field holds a value of one of the types the
plugins store; a `float32` is taken as the exact rational.
-/

namespace Kubebpfbox

open Golang

/-- The value of a field. -/
inductive FieldValue where
  | float32 (q : ℚ)
  | uint64 (n : UInt64)
  | string (s : GoString)
  deriving DecidableEq

/-- `metric.Metric`. -/
structure Metric where
  measurement : GoString := []
  tags : GoMap GoString GoString := ∅
  fields : GoMap GoString FieldValue := ∅

namespace Metric

/-- `AddTags`. -/
def addTags (m : Metric) (k : String) (v : GoString) : Metric :=
  { m with tags := m.tags.insert (ascii k) v }

/-- `AddField`. -/
def addField (m : Metric) (k : String) (v : FieldValue) : Metric :=
  { m with fields := m.fields.insert (ascii k) v }

end Metric

end Kubebpfbox
