import Bookmarks.Application
import Bookmarks.Bytes.Base64
import Bookmarks.Bytes.Basic
import Bookmarks.Bytes.Hex
import Bookmarks.Call.Answer
import Bookmarks.Call.Basic
import Bookmarks.Category
import Bookmarks.Collection.Basic
import Bookmarks.Collection.Command
import Bookmarks.Collection.Merge
import Bookmarks.Crypto.Aes
import Bookmarks.Crypto.Gcm
import Bookmarks.Crypto.Pbkdf2
import Bookmarks.Crypto.Sha256
import Bookmarks.Decimal.Binary64
import Bookmarks.Decimal.Literal
import Bookmarks.Decimal.Shortest
import Bookmarks.Disk.Basic
import Bookmarks.Disk.Opening
import Bookmarks.Disk.Place
import Bookmarks.Host
import Bookmarks.Host.FileUri
import Bookmarks.Host.Location
import Bookmarks.Host.Path
import Bookmarks.Json.Basic
import Bookmarks.Json.Codec
import Bookmarks.Json.Document
import Bookmarks.Json.Fault
import Bookmarks.Json.Reader
import Bookmarks.Json.Record
import Bookmarks.Json.Writer
import Bookmarks.Link.Basic
import Bookmarks.Link.Edit
import Bookmarks.Main
import Bookmarks.Program
import Bookmarks.Sequence
import Bookmarks.Server
import Bookmarks.Settings.Basic
import Bookmarks.Settings.File
import Bookmarks.Settings.Path
import Bookmarks.Shelf.Basic
import Bookmarks.Shelf.Edit
import Bookmarks.Shelf.Scope
import Bookmarks.Storage
import Bookmarks.Storage.Image
import Bookmarks.Store
import Bookmarks.Supply
import Bookmarks.Text.Blank
import Bookmarks.Text.Fields
import Bookmarks.Text.Lossy
import Bookmarks.Text.Printable
import Bookmarks.Text.Quoted
import Bookmarks.Text.Symbols
import Bookmarks.Url
import Bookmarks.Vault.Basic
import Bookmarks.Vault.Call
import Bookmarks.Vault.Flags
import Bookmarks.Vault.Memory
import Bookmarks.Vault.Sealing
import Bookmarks.Vault.Token
import Bookmarks.Proofs.Sequence
import Bookmarks.Proofs.Shelf.Order
import Bookmarks.Proofs.Shelf.Pins
import Bookmarks.Proofs.Shelf.Operations
import Bookmarks.Proofs.Collection.InOrder
import Bookmarks.Proofs.Store.Session
import Bookmarks.Proofs.Json.Leaves
import Bookmarks.Proofs.Json.RoundTrip
import Bookmarks.Proofs.Json.Records
import Bookmarks.Proofs.Json.Values
import Bookmarks.Proofs.Link.Codec
import Bookmarks.Proofs.Collection.Codec
import Bookmarks.Proofs.Collection.Storable
import Bookmarks.Proofs.Store.Persistence
import Bookmarks.Proofs.Bytes.Base64
import Bookmarks.Proofs.Vault.Token
import Bookmarks.Proofs.Crypto.Gcm
import Bookmarks.Proofs.Vault.Sealing
import Bookmarks.Proofs.Vault.Payload
import Bookmarks.Proofs.Vault.Session
import Bookmarks.Proofs.Vault.Lifecycle
import Bookmarks.Proofs.Vault.Memory
import Bookmarks.Proofs.Application.Access
import Bookmarks.Proofs.Crypto.Pbkdf2
import Bookmarks.Proofs.Vault.Passwords
import Bookmarks.Proofs.Link.Edit
import Bookmarks.Proofs.Collection.Again
import Bookmarks.Proofs.Store.Retry
import Bookmarks.Proofs.Link.EditCodec
import Bookmarks.Proofs.Settings.Codec
import Bookmarks.Proofs.Formats
import Bookmarks.Proofs.Vault.Atomic
import Bookmarks.Proofs.Store.Failure
import Bookmarks.Proofs.Shelf.Frame
import Bookmarks.Proofs.Collection.Frame
import Bookmarks.Proofs.Store.Frame
import Bookmarks.Proofs.Application.Separation
import Bookmarks.Proofs.Application.Erasure
import Bookmarks.Proofs.Call.Areas
import Bookmarks.Proofs.Json.OneLine
import Bookmarks.Proofs.Server
import Bookmarks.Proofs.Vault.Agreement
import Bookmarks.Proofs.Collection.Distinct
import Bookmarks.Proofs.Collection.Written
import Bookmarks.Proofs.Store.Invariant
import Bookmarks.Proofs.Store.Distinct
import Bookmarks.Proofs.Sequence.Stable
import Bookmarks.Proofs.Shelf.Reordered
import Bookmarks.Proofs.Shelf.Ranking
import Bookmarks.Proofs.Collection.Merged
import Bookmarks.Proofs.Store.Reordering
import Bookmarks.Proofs.Store.Addition
import Bookmarks.Proofs.Vault.NormalForm
import Bookmarks.Proofs.Vault.Sealed
import Bookmarks.Proofs.Collection.Repaired
import Bookmarks.Proofs.Collection.Redirected
import Bookmarks.Proofs.Vault.Format
import Bookmarks.Proofs.Shelf.NewPins
import Bookmarks.Proofs.Vault.NewPins
import Bookmarks.Proofs.Shelf.Turned
import Bookmarks.Proofs.Store.Turning
import Bookmarks.Proofs.Settings.Path
import Bookmarks.Proofs.Settings.Sites
import Bookmarks.Proofs.Settings.Changes
import Bookmarks.Proofs.Store.Updating
import Bookmarks.Proofs.Crypto.TagField
import Bookmarks.Proofs.Crypto.ChangedByte
import Bookmarks.Proofs.Vault.Tampered
import Bookmarks.Proofs.Store.Texts
import Bookmarks.Proofs.Collection.Categories
import Bookmarks.Proofs.Store.Names
import Bookmarks.Proofs.Store.Views
import Bookmarks.Proofs.Shelf.Comparison
import Bookmarks.Proofs.Sequence.Moving
import Bookmarks.Proofs.Limiter
