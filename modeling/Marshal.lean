import Marshal.Call
import Marshal.Collection.Bound
import Marshal.Collection.Insert
import Marshal.Container.Array
import Marshal.Expr.Text
import Marshal.File.Open
import Marshal.Session.Callback
import Marshal.Session.EntryPoint
import Marshal.Proofs.Host.Requests
import Marshal.Proofs.Host.Copy
import Marshal.Proofs.Host.Unbounded
import Marshal.Proofs.Host.Parted
import Marshal.Proofs.Container.Program
import Marshal.Proofs.Text.Utf8
import Marshal.Proofs.Expr.Codec
import Marshal.Proofs.Error.Registry
import Marshal.Proofs.Session.Parameters
import Marshal.Proofs.Session.Delivery
import Marshal.Proofs.Session.Publication
import Marshal.Proofs.Session.LastError
import Marshal.Proofs.Collection.Order
import Marshal.Proofs.Collection.Insertions
import Marshal.Proofs.Container.Separation
import Marshal.Proofs.Container.Custody
import Marshal.Proofs.Session.Detachment
import Marshal.Proofs.Collection.References
import Marshal.Proofs.Collection.Receipts
import Marshal.Proofs.Session.Creation
import Marshal.Proofs.Container.Access
import Marshal.Proofs.Array.Fitting
import Marshal.Proofs.Container.Conversion
import Marshal.Proofs.Container.Clipping
import Marshal.Proofs.Host.Origins
import Marshal.Proofs.Collection.Copies
import Marshal.Proofs.Container.TypedAccess
import Marshal.Proofs.Container.Sizes
import Marshal.Proofs.Collection.Binding
import Marshal.Proofs.Session.Batches
import Marshal.Proofs.Container.Assignment
import Marshal.Proofs.Error.Repetition
import Marshal.Proofs.Expr.Truncation
import Marshal.Proofs.Array.Scaling
import Marshal.Proofs.Collection.Routes
import Marshal.Proofs.Container.OwnType
import Marshal.Proofs.Call.Slots
import Marshal.Proofs.Session.Status
import Marshal.Proofs.File.Modes
import Marshal.Proofs.Array.Writes
