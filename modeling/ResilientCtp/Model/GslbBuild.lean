import ResilientCtp.Model.Spec

/-!
# The composed `Gslb` (`gslb_build.py`)

`shouldManage` decides if the `Gslb` is rendered; `build` renders it, with the demo backend where
`gslb.demoApp` asks for one.
-/

namespace ResilientCtp

open Py

namespace GslbBuild

def gslbResource : String := "gslb-app"
def demoDeploymentName : String := "gslb-demo-app"
def demoServiceName : String := "gslb-demo-svc"

def shouldManage (cfg : GslbCfg) (k8gbReady gslbFound : Bool) : Bool :=
  if !cfg.manage.getD true then false else k8gbReady || gslbFound

def metadata (name ns : String) : Value :=
  .dict [
    ("name", .str name),
    ("namespace", .str ns),
    ("annotations", .dict [("crossplane.io/composition-resource-name", .str name)])]

/-- The geo of the member with the lowest priority number, the first of several. -/
def primaryGeoTag (identity : Identity) : List Member → String
  | [] => identity.geoTag
  | m :: ms => (ms.foldl (fun b m => if m.priority < b.priority then m else b) m).geoTag

def gslb (hostname strategy ingressClass backendService : String) (identity : Identity)
    (members : List Member) (ns : String) : Value :=
  .dict [
    ("apiVersion", .str "k8gb.absa.oss/v1beta1"),
    ("kind", .str "Gslb"),
    ("metadata", metadata gslbResource ns),
    ("spec", .dict [
      ("ingress", .dict [
        ("ingressClassName", .str ingressClass),
        ("rules", .list [.dict [
          ("host", .str hostname),
          ("http", .dict [("paths", .list [.dict [
            ("path", .str "/"),
            ("pathType", .str "Prefix"),
            ("backend", .dict [("service", .dict [
              ("name", .str backendService),
              ("port", .dict [("number", .num 80)])])])]])])]])]),
      ("strategy", .dict ([("type", .str strategy)] ++
        if strategy = "failover" then [("primaryGeoTag", .str (primaryGeoTag identity members))]
        else []))])]

def demoDeployment (ns : String) : Value :=
  let labels := .dict [("app", .str "gslb-demo")]
  .dict [
    ("apiVersion", .str "apps/v1"),
    ("kind", .str "Deployment"),
    ("metadata", metadata demoDeploymentName ns),
    ("spec", .dict [
      ("replicas", .num 1),
      ("selector", .dict [("matchLabels", labels)]),
      ("template", .dict [
        ("metadata", .dict [("labels", labels)]),
        ("spec", .dict [("containers", .list [.dict [
          ("name", .str "nginx"),
          ("image", .str "nginx:stable"),
          ("ports", .list [.dict [("containerPort", .num 80)]])]])])])])]

def demoService (ns : String) : Value :=
  .dict [
    ("apiVersion", .str "v1"),
    ("kind", .str "Service"),
    ("metadata", metadata demoServiceName ns),
    ("spec", .dict [
      ("selector", .dict [("app", .str "gslb-demo")]),
      ("ports", .list [.dict [("port", .num 80), ("targetPort", .num 80)]])])]

def build (identity : Identity) (members : List Member) (cfg : GslbCfg) (ns : String) :
    List (String × Value) :=
  let demo := cfg.demoApp.getD false
  let backendService := if demo then demoServiceName else cfg.backendServiceName.getD "app"
  [(gslbResource, gslb cfg.hostname cfg.strategy (cfg.ingressClassName.getD "nginx")
      backendService identity members ns)] ++
  if demo then [(demoDeploymentName, demoDeployment ns), (demoServiceName, demoService ns)]
  else []

end GslbBuild

end ResilientCtp
