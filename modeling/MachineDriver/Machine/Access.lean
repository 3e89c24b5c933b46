import MachineDriver.Cluster.Connection
import MachineDriver.Cluster.Exchange
import MachineDriver.Machine.Credentials

set_option autoImplicit false

/-!
# Access to a cluster

What credentials give: a connection to a cluster with a namespace for machines, and the version that
the cluster tells.
-/

namespace MachineDriver.Access

open Json (Codec Field Record)

/-- The connection that credentials lead to, in the context that is asked for. -/
def connect (c : Credentials) (wanted : Option String) : Except DriverError Connection :=
  match c.kubeconfig? with
  | none => .error (.client (Credentials.missing Credentials.kubeconfigEntry))
  | some bytes => (Connection.ofBytes bytes wanted).mapError fun e => .client e.message

/-- The namespace of machines. -/
def machineNamespace (c : Credentials) (wanted : Option String) : Except DriverError String :=
  (connect c wanted).map Connection.ns

/-- The request for the version of a cluster, which keeps the path of its server. -/
def versionRequest (c : Connection) : ApiRequest :=
  let base := (c.server.path.reverse.dropWhile (· = '/')).reverse
  { method := "GET", target := base ++ "/version".toList }

/-- The names of what a cluster tells about its version. -/
def versionCodec : Codec String :=
  Record.opened
    { fields :=
        .cons (.lenient "buildDate" .text "")
        <| .cons (.lenient "compiler" .text "")
        <| .cons (.lenient "gitCommit" .text "")
        <| .cons (.lenient "gitTreeState" .text "")
        <| .cons (.lenient "gitVersion" .text "")
        <| .cons (.lenient "goVersion" .text "")
        <| .cons (.lenient "major" .text "")
        <| .cons (.lenient "minor" .text "")
        <| .cons (.lenient "platform" .text "") .nil
      ofFields := fun (_, _, _, _, version, _) => version
      toFields := fun version => ("", "", "", "", version, "", "", "", "", ()) }

/-- The version that a cluster replies. -/
def readVersion (r : Reply) : Except DriverError String :=
  (r.read (Reply.readAs? versionCodec)).mapError fun e => .serverVersion e.message

/-- The version of the cluster that credentials lead to, given how clusters reply. -/
def serverVersion (c : Credentials) (wanted : Option String)
    (reply : Connection → ApiRequest → Reply) : Except DriverError String :=
  match connect c wanted with
  | .error e => .error (.serverVersion e.message)
  | .ok connection => readVersion (reply connection (versionRequest connection))

end MachineDriver.Access
