import ResilientCtp.Model.Spec

/-!
# The optional k8gb install (`k8gb_install.py`)

`shouldInstall` decides if the two Helm Releases are rendered; `build` renders them.
-/

namespace ResilientCtp

open Py

namespace K8gbInstall

def k8gbNginx : String := "k8gb-nginx-ingress"
def k8gbOperator : String := "k8gb-operator"

def k8gbChartName : String := "k8gb"
def k8gbChartRepository : String := "https://www.k8gb.io"
def k8gbChartVersion : String := "v0.15.0"

def nginxChartName : String := "ingress-nginx"
def nginxChartRepository : String := "https://kubernetes.github.io/ingress-nginx"
def nginxChartVersion : String := "4.0.15"

def shouldInstall (mode : String) (externalK8gbPresent operatorInstalled : Bool) : Bool :=
  if mode = "always" then true
  else if mode = "auto" then operatorInstalled || !externalK8gbPresent
  else false

def release (name ns providerConfig : String) (chart : Dict) (targetNs : String)
    (values : Value) : Value :=
  .dict [
    ("apiVersion", .str "helm.m.crossplane.io/v1beta1"),
    ("kind", .str "Release"),
    ("metadata", .dict [
      ("name", .str name),
      ("namespace", .str ns),
      ("annotations", .dict [("crossplane.io/composition-resource-name", .str name)])]),
    ("spec", .dict [
      ("forProvider", .dict [
        ("chart", .dict chart),
        ("namespace", .str targetNs),
        ("values", values),
        ("wait", .bool false)]),
      ("providerConfigRef", .dict [
        ("name", .str providerConfig),
        ("kind", .str "ProviderConfig")])])]

def chart (name repository version : String) : Dict :=
  [("name", .str name), ("repository", .str repository), ("version", .str version)]

def lbAnnotations (provider : String) : Dict :=
  if provider = "aws" then [("service.beta.kubernetes.io/aws-load-balancer-type", .str "nlb")]
  else []

def secretEnv (name secretName key : String) (optional : Bool) : Value :=
  .dict [("name", .str name), ("valueFrom", .dict [("secretKeyRef", .dict (
    [("name", .str secretName), ("key", .str key)] ++
      if optional then [("optional", .bool true)] else []))])]

/-- The external-dns values. -/
def extdnsValues (geo dnsProvider secretName : String) (domainFilters : List String)
    (region : String) : Dict :=
  [("enabled", .bool true),
   ("interval", .str "20s"),
   ("labelFilter", .str "k8gb.absa.oss/dnstype=extdns"),
   ("logLevel", .str "debug"),
   ("policy", .str "sync"),
   ("txtOwnerId", .str ("k8gb-" ++ geo)),
   ("txtPrefix", .str ("k8gb-" ++ geo ++ "-"))] ++
  if dnsProvider = "" then []
  else
    [("provider", .dict [("name", .str dnsProvider)])] ++
    (if domainFilters.isEmpty then [] else [("domainFilters", .list (domainFilters.map .str))]) ++
    if dnsProvider = "aws" ∧ secretName ≠ "" then
      [("env", .list (
        (if region = "" then []
          else [.dict [("name", .str "AWS_DEFAULT_REGION"), ("value", .str region)]]) ++
        [secretEnv "AWS_ACCESS_KEY_ID" secretName "access_key_id" false,
         secretEnv "AWS_SECRET_ACCESS_KEY" secretName "secret_access_key" false,
         secretEnv "AWS_SESSION_TOKEN" secretName "session_token" true]))]
    else []

def dnsZone (z : DnsZone) : Value :=
  .dict ([("parentZone", .str z.parentZone), ("loadBalancedZone", .str z.loadBalancedZone)] ++
    (z.negTTL.map fun n => ("negTTL", .num n)).toList)

/-- The other geos of the set, sorted. -/
def extGeos (geo : String) (members : List Member) : List String :=
  (((members.map (·.geoTag)).filter fun g => g != "" && g != geo).eraseDups).mergeSort

def defaultDnsZones : List DnsZone :=
  [{ parentZone := "example.com", loadBalancedZone := "cloud.example.com", negTTL := some 30 }]

def nginxValues (annotations : Dict) : Value :=
  .dict [("controller", .dict [
    ("admissionWebhooks", .dict [
      ("enabled", .bool false), ("patch", .dict [("enabled", .bool false)])]),
    ("kind", .str "Deployment"),
    ("replicaCount", .num 1),
    ("service", .dict [("type", .str "LoadBalancer"), ("annotations", .dict annotations)])])]

def k8gbValues (identity : Identity) (members : List Member) (k8gb : K8gbCfg)
    (annotations : Dict) : Value :=
  let geo := identity.geoTag
  let dnsZones := k8gb.dnsZones.getD defaultDnsZones
  let domainFilters := (dnsZones.map (·.parentZone)).filter (· != "")
  .dict [
    ("k8gb", .dict [
      ("deployCrds", .bool true),
      ("deployRbac", .bool true),
      ("clusterGeoTag", .str geo),
      ("extGslbClustersGeoTags", .str (",".intercalate (extGeos geo members))),
      ("dnsZones", .list (dnsZones.map dnsZone)),
      ("edgeDNSServers", .list ((k8gb.edgeDNSServers.getD ["1.1.1.1"]).map .str)),
      ("log", .dict [("format", .str "simple"), ("level", .str (k8gb.logLevel.getD "info"))]),
      ("reconcileRequeueSeconds", .num 30),
      ("nsRecordTTL", .num 30),
      ("metricsAddress", .str "0.0.0.0:8080")]),
    ("extdns", .dict (extdnsValues geo (k8gb.dnsProvider.getD "")
      (k8gb.extdnsCredentialsSecretName.getD "") domainFilters identity.region)),
    ("coredns", .dict [
      ("serviceType", .str "LoadBalancer"),
      ("service", .dict [("annotations", .dict annotations)])])]

/-- The nginx and the operator Release. -/
def build (identity : Identity) (members : List Member) (k8gb : K8gbCfg)
    (ns helmProviderConfig : String) : List (String × Value) :=
  let annotations := lbAnnotations identity.provider
  [(k8gbNginx, release k8gbNginx ns helmProviderConfig
      (chart nginxChartName nginxChartRepository nginxChartVersion) "k8gb"
      (nginxValues annotations)),
   (k8gbOperator, release k8gbOperator ns helmProviderConfig
      (chart k8gbChartName k8gbChartRepository (k8gb.version.getD k8gbChartVersion)) "k8gb"
      (k8gbValues identity members k8gb annotations))]

end K8gbInstall

end ResilientCtp
