import ResilientCtp.Model.Compose
import ResilientCtp.Py.Null

/-!
# The request as it arrives

`Received.compose` is `_compose` from the XR as it is observed, whose `status` may be absent or
null. `Field` names a field that is the status of the XR, of a fetched Gslb or of an observed
resource, or lies inside it; `Place.schema` is the type of that status, as far as `_compose` reads
it, and `Field.null` sets the field to null where it is absent.
-/

namespace ResilientCtp

open Py

structure Received where
  ns : Option String
  spec : Spec
  /-- The XR, of which the status is read. -/
  composite : Dict
  context : Value
  observed : Dict

/-- `xr.get("status", {}) or {}`. -/
def priorStatus (composite : Dict) : Except Err Dict :=
  ((Dict.getD composite "status" (.dict [])).or (.dict [])).asDict

namespace Received

def request (r : Received) (status : Dict) : Request :=
  { xr := { ns := r.ns, spec := r.spec, status }, context := r.context, observed := r.observed }

def compose (env : Env) (r : Received) : Except Err Response := do
  ResilientCtp.compose env (r.request (← priorStatus r.composite))

/-- Every observed resource is an object with a kind. -/
def Valid (r : Received) : Prop :=
  ∀ name v, Dict.get? r.observed name = some v →
    ∃ fields kind, v = .dict fields ∧ Dict.get? fields "kind" = some (.str kind)

end Received

/-! ## The statuses -/

def xrStatus : Schema :=
  .object [("role", .scalar), ("selfHeartbeatEpoch", .scalar),
    ("promotionCandidateSince", .scalar), ("lastHandoffTime", .scalar)]

def gslbStatus : Schema :=
  .object [("geoTag", .scalar), ("serviceHealth", .map .scalar),
    ("healthyRecords", .map (.list .scalar)),
    ("loadBalancer", .object [("exposedIps", .list .scalar)])]

def heartbeatStatus : Schema :=
  .object [("atProvider", .object [("tags", .map .scalar), ("labels", .map .scalar)])]

def releaseStatus : Schema :=
  .object [("conditions", .list (.object [("type", .scalar), ("status", .scalar)]))]

/-- An object whose status has the schema `s`. -/
def withStatus (s : Schema) : Schema := .object [("status", s)]

/-- Where a status is. -/
inductive Place where
  | xr
  /-- In the fetched Gslb of that index. -/
  | fetched (i : Nat)
  /-- In the observed resource of that name. -/
  | observed (name : String)

/-- What `_compose` reads of the status; of a resource that it does not read, nothing. -/
def Place.schema (spec : Spec) : Place → Schema
  | .xr => xrStatus
  | .fetched _ => gslbStatus
  | .observed name =>
    if name = GslbBuild.gslbResource then gslbStatus
    else if name = K8gbInstall.k8gbOperator then releaseStatus
    else if name = selfHb ∨ name ∈ spec.peerMembers.map (peerHbResourceName ·.id) then
      heartbeatStatus
    else .object []

/-- The field at `path` below a status; the status itself where the path is empty. -/
structure Field where
  place : Place
  path : Path

namespace Field

/-- The field is an object or a list, or one that `_compose` does not read. -/
def Admitted (f : Field) (spec : Spec) : Prop := (f.place.schema spec).has f.path = true

instance (f : Field) (spec : Spec) : Decidable (f.Admitted spec) :=
  inferInstanceAs (Decidable (_ = true))

/-- `setNull` in a dictionary. -/
def nullIn (p : Path) (d : Dict) : Option Dict :=
  match setNull p (.dict d) with
  | some (.dict d') => some d'
  | _ => none

/-- The request with the field set to null, where it is absent. -/
def null (f : Field) (r : Received) : Option Received :=
  match f.place with
  | .xr => do
    return { r with composite := ← nullIn (.key "status" :: f.path) r.composite }
  | .fetched i => do
    let p := .key extraResourcesKey :: .key "gslbs" :: .index i :: .key "status" :: f.path
    return { r with context := ← setNull p r.context }
  | .observed name => do
    return { r with observed := ← nullIn (.key name :: .key "status" :: f.path) r.observed }

end Field

end ResilientCtp
