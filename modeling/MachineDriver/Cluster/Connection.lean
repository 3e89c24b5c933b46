import MachineDriver.Cluster.Kubeconfig
import MachineDriver.HostName
import MachineDriver.Text.Quoted
import MachineDriver.Text.Utf8
import MachineDriver.Uri

set_option autoImplicit false

/-!
# Connections

From a kubeconfig to the cluster that it leads to. Files and programs are out of reach: whatever a
kubeconfig would take from one is missing. Proxies are not supported.
-/

namespace MachineDriver

open Kubeconfig (ClusterEntry User Context TokenService PlugIn)

/-- What is needed to talk to a cluster. -/
structure Connection where
  server : Uri
  /-- The namespace of the context. -/
  ns : String
  deriving DecidableEq, Repr, Inhabited

/-- Why a kubeconfig leads to no cluster. -/
inductive ConnectionError where
  | badText (fault : Text.Utf8.Fault)
  | unreadable
  | noContext
  | unknownContext (name : String)
  | unknownCluster (name : String)
  | noServer
  | badServer (fault : Uri.Fault)
  /-- The certificates of the cluster's authority cannot be read. -/
  | badAuthority
  | badProxy (fault : Uri.Fault)
  | disabledProxy (proxy : Uri) (feature : String)
  | unsupportedProxy (proxy : Uri)
  | badTokenService (reason : String)
  | noTokenFile (path : String)
  | noCommand
  | noProgram
  | badImpersonation
  /-- The certificate of the user comes without a key. -/
  | noPrivateKey
  | badServerName
  deriving DecidableEq, Repr

namespace ConnectionError

/-- What is said of a file that is not there. -/
def noFile : String := "No such file or directory (os error 2)"

/-- How an error is reported. -/
def message : ConnectionError → String
  | .badText fault => "kubeconfig is not UTF-8: " ++ fault.message
  | .unreadable => "parse kubeconfig"
  | .noContext => "load kubeconfig: failed to determine current context"
  | .unknownContext name => "load kubeconfig: failed to load current context: " ++ name
  | .unknownCluster name => "load kubeconfig: failed to load the cluster of context: " ++ name
  | .noServer => "load kubeconfig: cluster url is missing on selected cluster"
  | .badServer fault => "load kubeconfig: failed to parse cluster url: " ++ fault.message
  | .badAuthority => "load kubeconfig: failed to load certificate authority"
  | .badProxy fault => "load kubeconfig: failed to parse proxy url: " ++ fault.message
  | .disabledProxy proxy feature =>
    "configured proxy " ++ proxy.text ++ " requires the disabled feature " ++ Text.quoted feature
  | .unsupportedProxy proxy =>
    "configured proxy " ++ proxy.text ++ " uses an unsupported protocol"
  | .badTokenService reason => "auth error: failed exec auth: " ++ reason
  | .noTokenFile path =>
    "auth error: failed to read token file \x27" ++ Text.quoted path ++ "\x27: " ++ noFile
  | .noCommand => "auth error: command must be specified to use exec authentication plugin"
  | .noProgram => "auth error: unable to run auth exec: " ++ noFile
  | .badImpersonation => "HttpError: failed to parse header value"
  | .noPrivateKey =>
    "rustls tls error: identity PEM is missing a private key: the key must be PKCS8 or RSA/PKCS1"
  | .badServerName => "rustls tls error: invalid server name: invalid dns name"

end ConnectionError

namespace Connection

/-! ## Choosing -/

/-- The context that counts: the one that is asked for or, without that, the current one. -/
def contextOf (k : Kubeconfig) (wanted : Option String) : Except ConnectionError Context :=
  match wanted.or k.currentContext with
  | none => .error .noContext
  | some name =>
    match Named.lookup name k.contexts with
    | some c => .ok c
    | none => .error (.unknownContext name)

/-- The cluster of a context. -/
def clusterOf (k : Kubeconfig) (c : Context) : Except ConnectionError ClusterEntry :=
  match Named.lookup c.cluster k.clusters with
  | some cluster => .ok cluster
  | none => .error (.unknownCluster c.cluster)

/-- The user of a context; one that is not known is nobody. -/
def userOf (k : Kubeconfig) (c : Context) : User :=
  (c.user.bind fun name => Named.lookup name k.users).getD {}

/-! ## Checking -/

/-- The server of a cluster. -/
def serverOf (c : ClusterEntry) : Except ConnectionError Uri :=
  match c.server with
  | none => .error .noServer
  | some s => (Uri.ofText s).mapError .badServer

/-- Accepts a cluster whose authority is not told or is told in base64. -/
def checkAuthority (c : ClusterEntry) : Except ConnectionError Unit :=
  match c.authorityData with
  | some data => if (Text.Base64.decode? data).isSome then .ok () else .error .badAuthority
  | none => if c.authorityFile.isSome then .error .badAuthority else .ok ()

/-- The proxy of a cluster; an empty text is none. -/
def proxyOf (c : ClusterEntry) : Except ConnectionError (Option Uri) :=
  match c.proxy with
  | none => .ok none
  | some "" => .ok none
  | some s => ((Uri.ofText s).mapError .badProxy).map some

/-- Accepts the absence of a proxy. -/
def refuseProxy : Option Uri → Except ConnectionError Unit
  | none => .ok ()
  | some proxy =>
    if proxy.scheme = some "socks5".toList then .error (.disabledProxy proxy "kube/socks5")
    else if proxy.scheme = some "http".toList then .error (.disabledProxy proxy "kube/http-proxy")
    else .error (.unsupportedProxy proxy)

/-- The token services that may tell a token of their own. -/
def knownServices : List String := ["oidc", "gcp"]

/-- Accepts a token service that is known and tells its token. -/
def checkTokenService (s : TokenService) : Except ConnectionError Unit :=
  if !knownServices.contains s.name then
    .error (.badTokenService ("Authentication with provider " ++ s.name ++ " not supported"))
  else if s.config.contains "id-token" then .ok ()
  else .error (.badTokenService ("No id-token for " ++ s.name ++ " Authentication provider"))

/-- Accepts a user whose credentials are within reach. A token service comes first, then a password,
a token, a file and a plug-in. -/
def checkUser (u : User) : Except ConnectionError Unit :=
  match u.tokenService with
  | some s => checkTokenService s
  | none =>
    if (u.username.isSome && u.password.isSome) || u.token.isSome then .ok ()
    else
      match u.tokenFile, u.plugIn with
      | some path, _ => .error (.noTokenFile path)
      | none, some p => .error (if p.command.isSome then .noProgram else .noCommand)
      | none, none => .ok ()

/-- The bytes of a text. -/
def decoded? (data : Option String) : Option (List UInt8) :=
  data.bind Text.Base64.decode?

/-- Whether bytes hold the mark at the front of keys and certificates. -/
def holdsMark : List UInt8 → Bool
  | [] => false
  | b :: bytes =>
    (Text.Utf8.encode "-----BEGIN ").isPrefixOf (b :: bytes) || holdsMark bytes

/-- Accepts a user whose certificate, if it can be read, comes with a key. -/
def checkIdentity (u : User) : Except ConnectionError Unit :=
  -- Without both, no identity is shown, which is no error here.
  match decoded? u.certificateData, decoded? u.keyData with
  | some certificate, some key =>
    if holdsMark (key ++ certificate) then .ok () else .error .noPrivateKey
  | _, _ => .ok ()

/-- Accepts a cluster whose server goes by no other name or by a valid one. -/
def checkServerName (c : ClusterEntry) : Except ConnectionError Unit :=
  match c.serverName with
  | none => .ok ()
  | some name => if HostName.isServerName name then .ok () else .error .badServerName

/-- Whether a text can be sent as the value of a header. -/
def isHeaderValue (s : String) : Bool :=
  s.toList.all fun c => c = '\t' || (0x20 ≤ c.toNat && c.toNat ≠ 0x7F)

/-- Accepts a user who impersonates nobody, or somebody whose name can be sent. -/
def checkImpersonation (u : User) : Except ConnectionError Unit :=
  if (u.impersonated.toList ++ u.impersonatedGroups.getD []).all isHeaderValue then .ok ()
  else .error .badImpersonation

/-! ## Connecting -/

/-- The connection that a kubeconfig leads to, in the context that is asked for. -/
def ofKubeconfig (k : Kubeconfig) (wanted : Option String) :
    Except ConnectionError Connection := do
  let context ← contextOf k wanted
  let cluster ← clusterOf k context
  let user := userOf k context
  let server ← serverOf cluster
  checkAuthority cluster
  refuseProxy (← proxyOf cluster)
  checkUser user
  checkIdentity user
  checkServerName cluster
  checkImpersonation user
  return ⟨server, context.ns?.getD "default"⟩

/-- The connection that the bytes of a kubeconfig lead to. -/
def ofBytes (bytes : List UInt8) (wanted : Option String) : Except ConnectionError Connection :=
  match Text.Utf8.decode bytes with
  | .error fault => .error (.badText fault)
  | .ok s =>
    match Kubeconfig.ofText? s with
    | none => .error .unreadable
    | some k => ofKubeconfig k wanted

end Connection

end MachineDriver
