import Kubebpfbox.Metric

/-!
# The metrics of the HTTP plugin (`plugins/http/traffic_metric.go`, `plugins/http/red_metric.go`)

`Traffic` is one request with its response, `RED` the rate, the errors and the duration of one pod
over one interval.  `covertMetric` turns each of them into a `Metric`.

The durations, the rate and the share of errors are `float32`s of the source, taken as exact
rationals, and its counters are `int`s, taken as integers without a bound.
-/

namespace Kubebpfbox.Http

open Golang

/-- `Traffic`. -/
structure Traffic where
  type : UInt32
  flow : ℤ
  dstIP : GoString
  dstPort : UInt16
  srcIP : GoString
  srcPort : UInt16
  duration : ℚ
  method : GoString
  url : GoString
  code : GoString
  podName : GoString
  nodeName : GoString
  nameSpace : GoString
  serviceName : GoString
  deriving DecidableEq

/-- `Traffic.CovertMetric`. -/
def Traffic.covertMetric (m : Traffic) : Metric :=
  ({ measurement := ascii "traffic" } : Metric)
    |>.addTags "podname" m.podName
    |>.addTags "nodename" m.nodeName
    |>.addTags "namespace" m.nameSpace
    |>.addTags "servicename" m.serviceName
    |>.addTags "type" (itoa m.type.toNat)
    |>.addTags "flow" (itoaInt m.flow)
    |>.addTags "dstip" m.dstIP
    |>.addTags "dstport" (itoa m.dstPort.toNat)
    |>.addTags "srcip" m.srcIP
    |>.addTags "srcport" (itoa m.srcPort.toNat)
    |>.addTags "method" m.method
    |>.addTags "url" m.url
    |>.addTags "code" m.code
    |>.addField "duration" (.float32 m.duration)

/-- `RED`. -/
structure RED where
  podName : GoString
  nodeName : GoString
  nameSpace : GoString
  serviceName : GoString
  requestCount : ℤ
  errCount : ℤ
  durationCount : ℤ
  qps : ℚ := 0
  errRate : ℚ := 0
  duration : ℚ := 0
  deriving DecidableEq

/-- `RED.CovertMetric`. -/
def RED.covertMetric (r : RED) : Metric :=
  ({ measurement := ascii "red" } : Metric)
    |>.addTags "podname" r.podName
    |>.addTags "nodename" r.nodeName
    |>.addTags "namespace" r.nameSpace
    |>.addTags "servicename" r.serviceName
    |>.addField "qps" (.float32 r.qps)
    |>.addField "errrate" (.float32 r.errRate)
    |>.addField "duration" (.float32 r.duration)

end Kubebpfbox.Http
