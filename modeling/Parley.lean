import Parley.Client.Api
import Parley.Client.Basic
import Parley.Client.Timeline
import Parley.CommandLine
import Parley.Config
import Parley.Config.Document
import Parley.Delivery.Tracker
import Parley.Delivery.Waiting
import Parley.Error
import Parley.Error.Detail
import Parley.Keepalive
import Parley.Main
import Parley.Scope
import Parley.Session.Basic
import Parley.Session.Dispatch
import Parley.Session.Event
import Parley.Session.Inbox
import Parley.Session.Outbox
import Parley.Store.CursorFile
import Parley.Store.CursorStore
import Parley.Store.Folder
import Parley.Sync.Cursors
import Parley.Sync.Document
import Parley.Sync.Engine
import Parley.Sync.GroupMap
import Parley.Text.Blank
import Parley.Text.Digits
import Parley.Text.Json
import Parley.Transport.Address
import Parley.Transport.FrameReader
import Parley.Transport.Handshake
import Parley.Transport.Link
import Parley.Transport.Stream
import Parley.Wire.AuthToken
import Parley.Wire.Body
import Parley.Wire.Bytes
import Parley.Wire.Command
import Parley.Wire.Frame
import Parley.Wire.Header
import Parley.Wire.Message
import Parley.Wire.Reading
import Parley.Wire.Utf8
import Parley.Wire.Writing
import Parley.Yaml.Cell
import Parley.Yaml.Layout
import Parley.Yaml.Node
import Parley.Yaml.Scalar
import Parley.Yaml.Token
import Parley.Yaml.Value
import Parley.Proofs.Transport.Chunking
import Parley.Proofs.Wire.Bodies
import Parley.Proofs.Wire.RoundTrip
import Parley.Proofs.Client.Run
import Parley.Proofs.Session.Steps
import Parley.Proofs.Session.Sending
import Parley.Proofs.Client.Lanes
import Parley.Proofs.Client.WireOrder
import Parley.Proofs.Store.Document
import Parley.Proofs.Store.Keeping
import Parley.Proofs.Store.Neighbours
import Parley.Proofs.Sync.Held
import Parley.Proofs.Session.Storing
import Parley.Proofs.Client.Stored
import Parley.Proofs.Client.Phases
import Parley.Proofs.Session.Waits
import Parley.Proofs.Client.Taking
import Parley.Proofs.Client.Feed
import Parley.Proofs.Client.Draining
import Parley.Proofs.Client.Standing
import Parley.Proofs.Delivery.Tracker
import Parley.Proofs.Session.Waiters
import Parley.Proofs.Client.Receipts
import Parley.Proofs.Client.Correlation
import Parley.Proofs.Sync.Operations
import Parley.Proofs.Sync.Advancing
import Parley.Proofs.Sync.Requesting
import Parley.Proofs.Sync.Deferring
import Parley.Proofs.Wire.Commands
import Parley.Proofs.Session.Answering
import Parley.Proofs.Session.Dialogue
import Parley.Proofs.Client.Conversation
import Parley.Proofs.Sync.Independence
import Parley.Proofs.Wire.Layouts
import Parley.Proofs.Session.Ending
import Parley.Proofs.Client.Overlapping
import Parley.Proofs.Transport.Introduction
import Parley.Proofs.Client.Introduction
import Parley.Proofs.Wire.Canonical
import Parley.Proofs.Client.Handing
import Parley.Proofs.Client.Operating
import Parley.Proofs.Sync.Windows
import Parley.Proofs.Client.Tagging
import Parley.Proofs.Client.Tracking
import Parley.Proofs.Client.Asking
import Parley.Proofs.Client.CatchingUp
import Parley.Proofs.Client.Admission
import Parley.Proofs.Client.Telling
import Parley.Proofs.Client.Owing
import Parley.Proofs.Client.Teardown
import Parley.Proofs.Transport.Legible
import Parley.Proofs.Session.Facing
import Parley.Proofs.Client.Facing
import Parley.Proofs.Client.Mirroring
import Parley.Proofs.Wire.Appending
import Parley.Proofs.Client.Abandoning
import Parley.Proofs.Client.Grounds
import Parley.Proofs.Store.Serving
import Parley.Proofs.Transport.Closing
import Parley.Proofs.Delivery.Lawful
import Parley.Proofs.Client.Sparing
import Parley.Proofs.Transport.AtOnce
import Parley.Proofs.Session.Pinging
import Parley.Proofs.Client.Lining
import Parley.Proofs.Client.Vigil
import Parley.Proofs.Client.Silence
import Parley.Proofs.Client.Alive
import Parley.Proofs.Client.Returning
