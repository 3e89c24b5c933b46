import MachineDriver.Machine.Access
import MachineDriver.Proofs.Creation
import MachineDriver.Proofs.SharedCluster
import MachineDriver.Server.Service
import MachineDriver.Proofs.Shutdown
import MachineDriver.Proofs.Undisturbed
import MachineDriver.Proofs.Pairing
import MachineDriver.Proofs.Faultless
import MachineDriver.Proofs.Listing
import MachineDriver.Proofs.Admission
import MachineDriver.Proofs.Blame
import MachineDriver.Proofs.Addressing
import MachineDriver.Proofs.Coherence
import MachineDriver.Proofs.Agreement
import MachineDriver.Proofs.Interleaving
import MachineDriver.Proofs.ConcurrentCreation
import MachineDriver.Proofs.Lossless
import MachineDriver.Proofs.RoundTrip
import MachineDriver.Proofs.NamedRoutes
import MachineDriver.Proofs.UserData
import MachineDriver.Proofs.Attempts
import MachineDriver.Proofs.Deletion
import MachineDriver.Proofs.AddedKeys
import MachineDriver.Proofs.NetworkSettings
import MachineDriver.Proofs.BootVolume
import MachineDriver.Proofs.RetryLoop
import MachineDriver.Proofs.Selection
import MachineDriver.Proofs.Placement
import MachineDriver.Proofs.Validation
import MachineDriver.Proofs.UsableToken
import MachineDriver.Proofs.Naming
import MachineDriver.Proofs.Patching
import MachineDriver.Proofs.Environment
