import SpringArm.Blueprint.Basic
import SpringArm.Notice

/-!
# Arm

The rigid segments of an arm. A segment joins a joint, the next joint and the inputs between them,
and exists only if there are exactly two such inputs. It is a mass at the place of its first joint.
The upper one leads from the shoulder to the elbow, the lower one from the elbow to the hand, and
two segments are joined to each other.
-/

namespace SpringArm

/-- The masses of a list whose height lies between the heights of two masses. -/
def massesBetween (masses : List Mass) (low high : Mass) : List Mass :=
  masses.filter fun mass => (Interval.mk low.y high.y).contains mass.y

namespace Graph

/-- Adds a segment at the place of its first joint, with springs to it from both joints and from two
inputs, in this order. -/
def addSegment (graph : Graph) (joint nextJoint : Mass) (inputs : Mass × Mass) : Mass × Graph :=
  let (segment, withSegment) := graph.addMass joint.x joint.y .armSegment
  let ends := [joint, nextJoint, inputs.1, inputs.2]
  (segment, ends.foldl (fun grown mass => (grown.addSpring mass segment).2) withSegment)

/-- Adds the segment between two joints if both exist and exactly two of the inputs lie between
them. If their number is wrong, `missing` says so. -/
def addSegmentBetween? (graph : Graph) (inputs : List Mass) (missing : Nat → Notice)
    (joint nextJoint : Option Mass) : Logged (Option Mass × Graph) :=
  match joint, nextJoint with
  | some joint, some nextJoint =>
    match massesBetween inputs joint nextJoint with
    | [first, second] =>
      let (segment, grown) := graph.addSegment joint nextJoint (first, second)
      ⟨(some segment, grown), []⟩
    | others => ⟨(none, graph), [missing others.length]⟩
  | _, _ => ⟨(none, graph), []⟩

end Graph

namespace Blueprint

/-- The blueprint with its arm segments, as far as they exist, added to its graph. -/
def connectSegments (blueprint : Blueprint) : Logged Blueprint :=
  let upper := blueprint.graph.addSegmentBetween? blueprint.inputs .noUpperSegment
    blueprint.shoulder blueprint.elbow
  let (upperSegment, withUpper) := upper.value
  let lower := withUpper.addSegmentBetween? blueprint.inputs .noLowerSegment
    blueprint.elbow blueprint.hand
  let (lowerSegment, withLower) := lower.value
  let graph :=
    match upperSegment, lowerSegment with
    | some upperMass, some lowerMass => (withLower.addSpring upperMass lowerMass).2
    | _, _ => withLower
  ⟨{ blueprint with graph, upperSegment, lowerSegment }, upper.notices ++ lower.notices⟩

end Blueprint

end SpringArm
