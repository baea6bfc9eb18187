import FacetOS.Rpc.Agreement
import FacetOS.FileView.Noninterference
import FacetOS.Initrd.Tool
import FacetOS.Environment.Publication
import FacetOS.Posix.Accounts
import FacetOS.Transport.Attenuation
import FacetOS.Transport.Slots
import FacetOS.Startup.Runtime
import FacetOS.Boot.Intact
import FacetOS.Process.Confinement
import FacetOS.Rpc.Requests
import FacetOS.Initrd.Resolution
import FacetOS.FileView.Listing
import FacetOS.Transport.Untrusted
import FacetOS.Transport.Exports
import FacetOS.Auth.Passwords
import FacetOS.FileView.Reachable
import FacetOS.Posix.Files
import FacetOS.Process.Identity
import FacetOS.Kernel.LogStore
import FacetOS.Kernel.DomainLog
import FacetOS.Kernel.EarlyHeap
import FacetOS.Startup.BootstrapHeap
import FacetOS.Platform.ChildPages
import FacetOS.Posix.Waiting
import FacetOS.Posix.Borrowing
import FacetOS.Seat.Serial
import FacetOS.Shell.PathSearch
import FacetOS.Shell.CommandLine
import FacetOS.Rpc.Growth
import FacetOS.Config.Integers
