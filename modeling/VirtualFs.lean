import VirtualFs.Control
import VirtualFs.Proofs.Kernel.Closing
import VirtualFs.Proofs.Kernel.Emptying
import VirtualFs.Proofs.Kernel.Enumeration
import VirtualFs.Proofs.Kernel.InTurn
import VirtualFs.Proofs.Kernel.Listings
import VirtualFs.Proofs.Kernel.MountRuns
import VirtualFs.Proofs.Kernel.Opening
import VirtualFs.Proofs.Kernel.Probing
import VirtualFs.Proofs.Kernel.ProcessCalls
import VirtualFs.Proofs.Kernel.Registrations
import VirtualFs.Proofs.Kernel.Unlocked
import VirtualFs.Proofs.Kernel.Unmounting
import VirtualFs.Proofs.Kernel.Unopened
import VirtualFs.Proofs.Mount.Cleaning
import VirtualFs.Proofs.Mount.Remainder
import VirtualFs.Proofs.Mount.Scanning
import VirtualFs.Proofs.Sync.Holding
import VirtualFs.Scenario.GraphPlay
import VirtualFs.Scenario.Summary
import VirtualFs.Scenario.TablePlay
