import RmqStream.Library.BigEndian
import RmqStream.Library.Fallible
import RmqStream.Library.Cursor
import RmqStream.Library.Transition
import RmqStream.Library.Fragment
import RmqStream.Library.Ledger
import RmqStream.Library.Fairness
import RmqStream.Utf8
import RmqStream.Codec
import RmqStream.Frame
import RmqStream.Framing
import RmqStream.Socket
import RmqStream.Reader
import RmqStream.Writer
import RmqStream.Connect
import RmqStream.Commands.RoundTrip
import RmqStream.Commands.Reserve
import RmqStream.Commands.Allocation
import RmqStream.Handshake.Limits
import RmqStream.Handshake.Negotiation
import RmqStream.Dispatcher
import RmqStream.Responses
import RmqStream.Client.Tuning
import RmqStream.Client.Lifecycle
import RmqStream.Client.Pending
import RmqStream.Client.Silence
import RmqStream.Client.Closing
import RmqStream.Client.Correlation
import RmqStream.Client.Answers
import RmqStream.Client.FrameLimit
import RmqStream.Client.Requests
import RmqStream.Client.References
import RmqStream.Client.Shutdown
import RmqStream.Client.Notification
import RmqStream.Client.Reception
import RmqStream.Client.Watchdog
import RmqStream.Client.Oversize
import RmqStream.Client.Progress
import RmqStream.Client.Returning
import RmqStream.Client.Expiry
import RmqStream.Client.Stream
import RmqStream.Client.EndToEnd
import RmqStream.Client.Reasons
import RmqStream.Client.Deadlines
import RmqStream.Client.Heartbeats
import RmqStream.Library.Linear
import RmqStream.Handshake.Socket
import RmqStream.Dispatcher.Threads
import RmqStream.Client.Greeting
import RmqStream.Client.Alive
import RmqStream.Client.Credentials
import RmqStream.Client.Descriptor
import RmqStream.Commands.Delimited
import RmqStream.Commands.Layout
