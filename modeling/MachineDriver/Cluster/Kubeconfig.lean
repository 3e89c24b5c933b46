import MachineDriver.Json.Codec
import MachineDriver.Yaml.AsJson
import MachineDriver.Yaml.Document

set_option autoImplicit false

/-!
# Kubeconfigs

How a cluster is reached: named clusters, users and contexts, and the context that counts. A text
may hold several documents. They are merged, and what is told first counts: `lookup_append` says
that a name which is known keeps its value.
-/

namespace MachineDriver

open Json (Codec Field Record)

/-- A value under a name. -/
structure Named (α : Type) where
  name : String
  value : Option α
  deriving DecidableEq, Repr, Inhabited

namespace Named

variable {α : Type}

/-- Values under names, as open records; the value has a name of its own among the fields. -/
def codec (field : String) (c : Codec α) : Codec (Named α) :=
  Record.opened
    { fields :=
        .cons (.required "name" .text)
        <| .cons (.optional field c) .nil
      ofFields := fun (n, v, ()) => ⟨n, v⟩
      toFields := fun n => (n.name, n.value, ()) }

/-- The value of the first entry of a name. -/
def lookup (name : String) (entries : List (Named α)) : Option α :=
  (entries.find? fun e => e.name = name).bind Named.value

/-- Entries and, after them, those of other names. -/
def append (entries others : List (Named α)) : List (Named α) :=
  entries ++ others.filter fun e => !entries.any fun known => known.name = e.name

theorem lookup_append (name : String) {entries : List (Named α)} (others : List (Named α))
    (h : (entries.find? fun e => e.name = name).isSome) :
    lookup name (append entries others) = lookup name entries := by
  obtain ⟨e, he⟩ := Option.isSome_iff_exists.1 h
  simp [lookup, append, List.find?_append, he]

end Named

/-- What nobody here reads but must be a document. -/
structure Extension where
  name : String
  extension : Json
  deriving Repr, Inhabited

/-- Extensions as open records. -/
def Extension.codec : Codec Extension :=
  Record.opened
    { fields :=
        .cons (.required "name" .text)
        <| .cons (.required "extension" .any) .nil
      ofFields := fun (n, e, ()) => ⟨n, e⟩
      toFields := fun e => (e.name, e.extension, ()) }

namespace Kubeconfig

/-- Where a cluster is and how its identity is checked. -/
structure ClusterEntry where
  server : Option String
  skipVerification : Option Bool
  authorityFile : Option String
  authorityData : Option String
  proxy : Option String
  disableCompression : Option Bool
  serverName : Option String
  extensions : Option (List Extension)
  deriving Repr, Inhabited

/-- Clusters as open records. -/
def ClusterEntry.codec : Codec ClusterEntry :=
  Record.opened
    { fields :=
        .cons (.optional "server" .text)
        <| .cons (.optional "insecure-skip-tls-verify" .bool)
        <| .cons (.optional "certificate-authority" .text)
        <| .cons (.optional "certificate-authority-data" .text)
        <| .cons (.optional "proxy-url" .text)
        <| .cons (.optional "disable-compression" .bool)
        <| .cons (.optional "tls-server-name" .text)
        <| .cons (.optional "extensions" (.list Extension.codec)) .nil
      ofFields := fun (s, sk, af, ad, p, d, n, e, ()) => ⟨s, sk, af, ad, p, d, n, e⟩
      toFields := fun c =>
        (c.server, c.skipVerification, c.authorityFile, c.authorityData, c.proxy,
          c.disableCompression, c.serverName, c.extensions, ()) }

/-- A service that hands out tokens. -/
structure TokenService where
  name : String
  config : TextMap String
  deriving DecidableEq, Repr, Inhabited

/-- Token services as open records. -/
def TokenService.codec : Codec TokenService :=
  Record.opened
    { fields :=
        .cons (.required "name" .text)
        <| .cons (.lenient "config" (.map .text) TextMap.empty) .nil
      ofFields := fun (n, c, ()) => ⟨n, c⟩
      toFields := fun s => (s.name, s.config, ()) }

/-- Whether a plug-in may ask questions. -/
inductive Interaction where
  | never
  | ifAvailable
  | always
  deriving DecidableEq, Repr, Inhabited

/-- The word for a way of interaction. -/
def Interaction.word : Interaction → String
  | .never => "Never"
  | .ifAvailable => "IfAvailable"
  | .always => "Always"

/-- Ways of interaction as words. -/
def Interaction.codec : Codec Interaction where
  read
    | .string s =>
      match [Interaction.never, .ifAvailable, .always].find? fun i => i.word = s with
      | some i => .ok i
      | none => .error .mismatch
    | j => .error (Json.unexpected j)
  write i := .string i.word

/-- A program that hands out credentials. -/
structure PlugIn where
  apiVersion : Option String
  command : Option String
  args : Option (List String)
  env : Option (List (TextMap String))
  interaction : Option Interaction
  provideClusterInfo : Bool
  deriving DecidableEq, Repr, Inhabited

/-- Plug-ins as open records. -/
def PlugIn.codec : Codec PlugIn :=
  Record.opened
    { fields :=
        .cons (.optional "apiVersion" .text)
        <| .cons (.optional "command" .text)
        <| .cons (.optional "args" (.list .text))
        <| .cons (.optional "env" (.list (.map .text)))
        <| .cons (.optional "interactiveMode" Interaction.codec)
        <| .cons (.defaulted "provideClusterInfo" .bool false) .nil
      ofFields := fun (v, c, a, e, i, p, ()) => ⟨v, c, a, e, i, p⟩
      toFields := fun p =>
        (p.apiVersion, p.command, p.args, p.env, p.interaction, p.provideClusterInfo, ()) }

/-- Who one is to a cluster. -/
structure User where
  username : Option String := none
  password : Option String := none
  token : Option String := none
  tokenFile : Option String := none
  certificateFile : Option String := none
  certificateData : Option String := none
  keyFile : Option String := none
  keyData : Option String := none
  impersonated : Option String := none
  impersonatedGroups : Option (List String) := none
  tokenService : Option TokenService := none
  plugIn : Option PlugIn := none
  deriving DecidableEq, Repr, Inhabited

/-- Users as open records. -/
def User.codec : Codec User :=
  Record.opened
    { fields :=
        .cons (.optional "username" .text)
        <| .cons (.optional "password" .text)
        <| .cons (.optional "token" .text)
        <| .cons (.optional "tokenFile" .text)
        <| .cons (.optional "client-certificate" .text)
        <| .cons (.optional "client-certificate-data" .text)
        <| .cons (.optional "client-key" .text)
        <| .cons (.optional "client-key-data" .text)
        <| .cons (.optional "as" .text)
        <| .cons (.optional "as-groups" (.list .text))
        <| .cons (.optional "auth-provider" TokenService.codec)
        <| .cons (.optional "exec" PlugIn.codec) .nil
      ofFields := fun (u, p, t, tf, cf, cd, kf, kd, i, g, s, e, ()) =>
        ⟨u, p, t, tf, cf, cd, kf, kd, i, g, s, e⟩
      toFields := fun u =>
        (u.username, u.password, u.token, u.tokenFile, u.certificateFile, u.certificateData,
          u.keyFile, u.keyData, u.impersonated, u.impersonatedGroups, u.tokenService, u.plugIn,
          ()) }

/-- A cluster, a user and a namespace that go together. -/
structure Context where
  cluster : String
  user : Option String
  ns? : Option String
  extensions : Option (List Extension)
  deriving Repr, Inhabited

/-- Contexts as open records. -/
def Context.codec : Codec Context :=
  Record.opened
    { fields :=
        .cons (.required "cluster" .text)
        <| .cons (.optional "user" .text)
        <| .cons (.optional "namespace" .text)
        <| .cons (.optional "extensions" (.list Extension.codec)) .nil
      ofFields := fun (c, u, n, e, ()) => ⟨c, u, n, e⟩
      toFields := fun c => (c.cluster, c.user, c.ns?, c.extensions, ()) }

/-- How a terminal shows things. -/
structure Preferences where
  colors : Option Bool
  extensions : Option (List Extension)
  deriving Repr, Inhabited

/-- Preferences as open records. -/
def Preferences.codec : Codec Preferences :=
  Record.opened
    { fields :=
        .cons (.optional "colors" .bool)
        <| .cons (.optional "extensions" (.list Extension.codec)) .nil
      ofFields := fun (c, e, ()) => ⟨c, e⟩
      toFields := fun p => (p.colors, p.extensions, ()) }

end Kubeconfig

open Kubeconfig in
/-- How clusters are reached. -/
structure Kubeconfig where
  preferences : Option Preferences := none
  clusters : List (Named ClusterEntry) := []
  users : List (Named User) := []
  contexts : List (Named Context) := []
  currentContext : Option String := none
  extensions : Option (List Extension) := none
  kind : Option String := none
  apiVersion : Option String := none
  deriving Repr, Inhabited

namespace Kubeconfig

/-- Kubeconfigs as open records. -/
def codec : Codec Kubeconfig :=
  Record.opened
    { fields :=
        .cons (.optional "preferences" Preferences.codec)
        <| .cons (.lenient "clusters" (.list (Named.codec "cluster" ClusterEntry.codec)) [])
        <| .cons (.lenient "users" (.list (Named.codec "user" User.codec)) [])
        <| .cons (.lenient "contexts" (.list (Named.codec "context" Context.codec)) [])
        <| .cons (.optional "current-context" .text)
        <| .cons (.optional "extensions" (.list Extension.codec))
        <| .cons (.optional "kind" .text)
        <| .cons (.optional "apiVersion" .text) .nil
      ofFields := fun (p, cl, u, co, cu, e, k, a, ()) => ⟨p, cl, u, co, cu, e, k, a⟩
      toFields := fun k =>
        (k.preferences, k.clusters, k.users, k.contexts, k.currentContext, k.extensions, k.kind,
          k.apiVersion, ()) }

/-! ## Merging -/

/-- Whether two texts are the same, if both are there. -/
def agree (a b : Option String) : Bool :=
  a.isNone || b.isNone || a == b

/-- What is told first and, where that tells nothing, what is told next. The kinds and the versions
must agree. -/
def merge (k next : Kubeconfig) : Option Kubeconfig :=
  if agree k.kind next.kind && agree k.apiVersion next.apiVersion then
    some
      { preferences := k.preferences.or next.preferences
        clusters := Named.append k.clusters next.clusters
        users := Named.append k.users next.users
        contexts := Named.append k.contexts next.contexts
        currentContext := k.currentContext.or next.currentContext
        extensions := k.extensions.or next.extensions
        kind := k.kind.or next.kind
        apiVersion := k.apiVersion.or next.apiVersion }
  else none

/-- The kubeconfig of a document; null tells nothing. -/
def ofYaml? (v : Yaml) : Option Kubeconfig :=
  if v.isNull then some {}
  else
    match codec.read v.asJson with
    | .ok k => some k
    | .error _ => none

/-- The kubeconfig of a text. -/
def ofText? (s : String) : Option Kubeconfig := do
  let documents ← Yaml.documents? s
  -- The first document is merged into one that tells nothing.
  let configs ← documents.mapM ofYaml?
  configs.foldlM merge {}

end Kubeconfig

end MachineDriver
