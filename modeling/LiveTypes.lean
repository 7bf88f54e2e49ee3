import LiveTypes.Config.Reader
import LiveTypes.Proofs.Outcome
import LiveTypes.Session
import LiveTypes.TypeUnit.Source
import LiveTypes.Proofs.Registry.Step
import LiveTypes.Proofs.TypeUnit.Verify
import LiveTypes.Proofs.AssocMap
import LiveTypes.Proofs.TypeUnit.ConstantPool
import LiveTypes.Proofs.Registry.Lookup
import LiveTypes.Proofs.Version.History
import LiveTypes.Proofs.Capture.Mapping
import LiveTypes.Proofs.Registry.WellFormed
import LiveTypes.Proofs.Capture.Table
import LiveTypes.Proofs.Bytes.Cursor
import LiveTypes.Proofs.Code.Tiling
import LiveTypes.Proofs.Redirection.Member
import LiveTypes.Proofs.Redirection.Version
import LiveTypes.Proofs.Registry.Extends
import LiveTypes.Proofs.Registry.Sites
import LiveTypes.Proofs.Capture.Closure
import LiveTypes.Proofs.Capture.Law
import LiveTypes.Proofs.TypeUnit.Format
import LiveTypes.Proofs.TypeUnit.Canonical
import LiveTypes.Proofs.Registry.Apply
import LiveTypes.Proofs.Registry.Bodies
import LiveTypes.Proofs.Heap.Basic
import LiveTypes.Proofs.Heap.Sound
import LiveTypes.Proofs.Machine.Keeps
import LiveTypes.Proofs.Machine.Sound
import LiveTypes.Proofs.Capture.Key
import LiveTypes.Proofs.Machine.Code
import LiveTypes.Proofs.Machine.Safety
import LiveTypes.Proofs.World.Basic
import LiveTypes.Proofs.Heap.Fields
import LiveTypes.Proofs.Machine.Effect
import LiveTypes.Proofs.Machine.Alike
import LiveTypes.Proofs.Machine.Repetition
import LiveTypes.Proofs.World.Fields
import LiveTypes.Proofs.Registry.Coherent
import LiveTypes.Proofs.Registry.Request
import LiveTypes.Proofs.World.Coherent
import LiveTypes.Proofs.World.Failures
import LiveTypes.Proofs.Heap.Typed
import LiveTypes.Proofs.World.Typed
import LiveTypes.Proofs.Machine.Dispatch
import LiveTypes.Proofs.World.Lookup
import LiveTypes.Proofs.World.Repetition
import LiveTypes.Proofs.Registry.Update
import LiveTypes.Proofs.Registry.Local
import LiveTypes.Proofs.Alike
import LiveTypes.Proofs.Capture.Repetition
import LiveTypes.Proofs.Redirection.Repetition
import LiveTypes.Proofs.Registry.Repetition
import LiveTypes.Proofs.World.Link
import LiveTypes.Proofs.Renaming
import LiveTypes.Proofs.Machine.Ground
import LiveTypes.Proofs.Machine.Agree
import LiveTypes.Proofs.Machine.Twin
import LiveTypes.Proofs.Machine.Bounded
import LiveTypes.Proofs.Machine.Binding
import LiveTypes.Proofs.Redirection.Binding
import LiveTypes.Proofs.Registry.Binding
import LiveTypes.Proofs.World.Binding
import LiveTypes.Proofs.Redirection.Verify
import LiveTypes.Proofs.Redirection.Footprint
import LiveTypes.Proofs.Registry.Versions
import LiveTypes.Proofs.Registry.Commute
import LiveTypes.Proofs.Machine.Transparency
import LiveTypes.Proofs.World.Transparency
import LiveTypes.Proofs.Capture.Order
import LiveTypes.Proofs.Capture.Allocation
import LiveTypes.Proofs.Version.Compatible
import LiveTypes.Proofs.Registry.Placed
import LiveTypes.Proofs.Registry.Recorded
import LiveTypes.Proofs.Code.Patching
import LiveTypes.Proofs.Redirection.Structure
import LiveTypes.Proofs.TypeName
import LiveTypes.Proofs.Version.Key
import LiveTypes.Proofs.Machine.Missing
import LiveTypes.Proofs.World.Promotion
import LiveTypes.Proofs.Redirection.OwnField
import LiveTypes.Proofs.Registry.OwnField
import LiveTypes.Proofs.Machine.OwnField
import LiveTypes.Proofs.World.OwnField
import LiveTypes.Proofs.Machine.Compose
import LiveTypes.Proofs.Machine.Frames
import LiveTypes.Proofs.Machine.Discipline
import LiveTypes.Proofs.Machine.Callee
import LiveTypes.Proofs.Machine.Cutoff
import LiveTypes.Proofs.World.Cutoff
import LiveTypes.Proofs.Registry.Exposed
import LiveTypes.Proofs.Registry.Lasting
import LiveTypes.Proofs.TypeUnit.Damage
import LiveTypes.Proofs.Descriptor.Key
import LiveTypes.Proofs.Code.Assembling
import LiveTypes.Proofs.NamePattern
import LiveTypes.Proofs.Code.Locality
