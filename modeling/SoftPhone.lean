import SoftPhone.Machine.Run
import SoftPhone.Machine.Heap
import SoftPhone.Machine.InOrder
import SoftPhone.Sip.Message
import SoftPhone.Sip.DialogInfo
import SoftPhone.Transaction.Basic
import SoftPhone.Transaction.Client
import SoftPhone.Transaction.Server
import SoftPhone.Transaction.ClientState
import SoftPhone.Transaction.Machine
import SoftPhone.Transaction.Armed
import SoftPhone.Transaction.Outcome
import SoftPhone.Transaction.Sticky
import SoftPhone.Dialog.World
import SoftPhone.Dialog.InviteDialog
import SoftPhone.Dialog.Step
import SoftPhone.Dialog.Frame
import SoftPhone.Dialog.Spec
import SoftPhone.Dialog.Callbacks
import SoftPhone.Dialog.Calls
import SoftPhone.Dialog.Cases
import SoftPhone.Dialog.Sound
import SoftPhone.Dialog.Phase
import SoftPhone.Dialog.Answered
import SoftPhone.Dialog.Closed
import SoftPhone.Dialog.Acknowledged
import SoftPhone.Dialog.LastAck
import SoftPhone.Dialog.Spares
import SoftPhone.Dialog.Works
import SoftPhone.Dialog.Responder
import SoftPhone.Dialog.Requests
import SoftPhone.Dialog.Asked
import SoftPhone.Dialog.Origins
import SoftPhone.Dialog.LocalCSeq
import SoftPhone.Dialog.RemoteCSeq
import SoftPhone.Dialog.Cancel
import SoftPhone.Dialog.ReliableOrder
import SoftPhone.Registration.RegistrationClient
import SoftPhone.Registration.Moves
import SoftPhone.Registration.Renewal
import SoftPhone.Registration.Transactions
import SoftPhone.Dialog.Branches
import SoftPhone.Dialog.Attempts
import SoftPhone.Transaction.Alone
import SoftPhone.Dialog.Attends
import SoftPhone.Dialog.Attended
import SoftPhone.Dialog.AfterFinal
import SoftPhone.Dialog.OwnServer
import SoftPhone.Dialog.Asking
import SoftPhone.Dialog.Awaiting
import SoftPhone.Dialog.Backed
import SoftPhone.Sip.Update
import SoftPhone.Text.Parser
import SoftPhone.Text.Quoted
import SoftPhone.Text.Message
import SoftPhone.Text.Parameters
import SoftPhone.Text.Via
import SoftPhone.Text.NameAddress
import SoftPhone.Text.Identifiers
import SoftPhone.Text.Factory
import SoftPhone.Text.Headers
import SoftPhone.Text.Created
import SoftPhone.Text.BothEnds
import SoftPhone.Text.Segments
import SoftPhone.Text.Received
import SoftPhone.Text.Ack
import SoftPhone.Text.Matching
import SoftPhone.Text.EndPoints
import SoftPhone.Text.Acknowledges
import SoftPhone.Text.SipMessage
import SoftPhone.Text.Buffer
import SoftPhone.Text.RoundTrip
import SoftPhone.Text.Framing
import SoftPhone.Machine.Ownership
import SoftPhone.Transaction.Registered
import SoftPhone.Provider.Population
import SoftPhone.Dialog.Identity
import SoftPhone.Dialog.Updates
import SoftPhone.Dialog.Shifts
import SoftPhone.Dialog.Listed
import SoftPhone.Dialog.Fixed
import SoftPhone.Text.UdpPacket
import SoftPhone.Text.Printed
import SoftPhone.Text.Lines
import SoftPhone.Text.HeaderSection
import SoftPhone.Text.TwoParsers
import SoftPhone.Text.Destination
import SoftPhone.Text.ReturnPath
import SoftPhone.Sdp.SdpMessage
import SoftPhone.Sdp.SdpLines
import SoftPhone.Sdp.Sections
import SoftPhone.Sdp.Scoping
import SoftPhone.Sdp.RoundTrip
import SoftPhone.Sdp.OfferAnswer
import SoftPhone.Util.Timer
import SoftPhone.Util.Counted
import SoftPhone.Util.Listeners
import SoftPhone.Provider.Connections
import SoftPhone.Text.HeaderInsertion
import SoftPhone.Text.Routes
import SoftPhone.Text.DialogRequest
import SoftPhone.Util.Base64
import SoftPhone.Sdp.CryptoAttribute
import SoftPhone.Sdp.SdesOfferAnswer
import SoftPhone.Sdp.Formats
import SoftPhone.Sdp.ConnectionField
import SoftPhone.Sdp.FirstField
import SoftPhone.Provider.Eviction
import SoftPhone.Text.Commas
import SoftPhone.Text.Stacks
import SoftPhone.Text.StrictRoute
import SoftPhone.Text.DisplayName
import SoftPhone.Text.SipUri
import SoftPhone.Text.ParameterEdits
import SoftPhone.Text.SentBy
import SoftPhone.Text.UriParameters
import SoftPhone.Text.ParameterLoops
import SoftPhone.Text.ParameterMap
import SoftPhone.Text.UpdatedVia
import SoftPhone.Text.MulticastVia
import SoftPhone.Text.TopVia
import SoftPhone.Util.Words
import SoftPhone.Rtp.RtpPacket
import SoftPhone.Rtp.Payload
import SoftPhone.Auth.AuthenticationHeader
import SoftPhone.Auth.DigestAuthentication
import SoftPhone.Auth.RequestDigest
import SoftPhone.Registration.Credentials
import SoftPhone.Util.Gregorian
import SoftPhone.Text.DateFormat
import SoftPhone.Text.ContactExpires
import SoftPhone.Registration.RenewTime
import SoftPhone.Dialog.SessionTimers
import SoftPhone.Codec.Decode
import SoftPhone.Text.Search
import SoftPhone.Text.HeaderSearch
import SoftPhone.Util.Arrays
import SoftPhone.Util.FormattedHex
import SoftPhone.Util.Blocks
import SoftPhone.Util.MD5
import SoftPhone.Text.SocketAddress
import SoftPhone.Util.Fifo
import SoftPhone.Util.Pipe
import SoftPhone.Util.ContinuousPipe
import SoftPhone.Util.BitStringBuffer
import SoftPhone.Util.SortedVector
import SoftPhone.Util.SimpleDigest
import SoftPhone.Util.BufferedInputEncoder
import SoftPhone.Sdp.MediaField
import SoftPhone.Text.HeaderIteration
