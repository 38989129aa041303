import AcosChat.Lib.Bytes
import AcosChat.Lib.Loop
import AcosChat.Lib.Run
import AcosChat.Message.Model
import AcosChat.Message.Encoding
import AcosChat.Message.Decoding
import AcosChat.Message.RoundTrip
import AcosChat.Message.Safety
import AcosChat.Message.Image
import AcosChat.Connection.Model
import AcosChat.Connection.Reassembly
import AcosChat.Connection.Delivery
import AcosChat.TsMap.Model
import AcosChat.TsMap.Cells
import AcosChat.TsMap.Splay
import AcosChat.TsMap.Operations
import AcosChat.TsMap.Refinement
import AcosChat.TsMap.Shape
import AcosChat.TsMap.Sequences
import AcosChat.TsMap.Invariant
import AcosChat.ConnMgr.Model
import AcosChat.ConnMgr.Agreement
import AcosChat.ConnMgr.Members
import AcosChat.ConnMgr.Memory
import AcosChat.ConnMgr.Refinement
import AcosChat.ConnMgr.Requests
import AcosChat.Db.Model
import AcosChat.Db.Accounts
import AcosChat.Db.Busy
import AcosChat.Db.Browsing
import AcosChat.Server.Jobs
import AcosChat.Server.Core
import AcosChat.Server.Outcomes
import AcosChat.Server.Invariant
import AcosChat.Server.Authentication
import AcosChat.Server.SendMessage
import AcosChat.Server.Chat
import AcosChat.Server.Hiding
import AcosChat.Server.Secrecy
import AcosChat.Server.Threads
import AcosChat.Server.Transitions
import AcosChat.Server.Custody
import AcosChat.Server.Closing
import AcosChat.Server.Lifetime
import AcosChat.Server.Handover
import AcosChat.Server.Presence
import AcosChat.Server.Announcements
import AcosChat.Connection.Calls
import AcosChat.Server.Listening
import AcosChat.Client.Listener
import AcosChat.Db.Registration
import AcosChat.Db.Identity
import AcosChat.Server.Pool
import AcosChat.Server.Resizing
import AcosChat.Server.Shutdown
import AcosChat.Server.Broadcasting
import AcosChat.Server.Sending
import AcosChat.Server.Meaning
import AcosChat.Server.Rejection
import AcosChat.Server.History
import AcosChat.Client.Frames
import AcosChat.Lib.Md5
import AcosChat.XenonMd5.Model
import AcosChat.XenonMd5.Padding
import AcosChat.XenonMd5.Digest
import AcosChat.Lib.Chain
import AcosChat.TsQueue.Model
import AcosChat.TsQueue.Refinement
import AcosChat.TsQueue.Threads
import AcosChat.Lib.Line
import AcosChat.EventLoop.Model
import AcosChat.EventLoop.Transitions
import AcosChat.EventLoop.Custody
import AcosChat.EventLoop.Bindings
import AcosChat.EventLoop.Faultless
import AcosChat.EventLoop.Order
import AcosChat.EventLoop.Phases
import AcosChat.EventLoop.Exits
import AcosChat.EventLoop.Delivery
import AcosChat.TsVector.Model
import AcosChat.TsVector.Contents
import AcosChat.Lib.Squeeze
import AcosChat.Client.StrStrip
import AcosChat.Server.Relaying
import AcosChat.Server.Authorship
import AcosChat.Server.Duplicates
import AcosChat.Lib.Flow
import AcosChat.Client.Model
import AcosChat.Client.Steps
import AcosChat.Client.Calls
import AcosChat.Client.Conversation
import AcosChat.Client.Lines
import AcosChat.Client.Pairs
import AcosChat.Client.Shutdown
import AcosChat.Lib.Locks
import AcosChat.Locking.Model
import AcosChat.Locking.Server
import AcosChat.Locking.Client
import AcosChat.Locking.Safety
import AcosChat.Talk.Model
import AcosChat.Talk.Runs
import AcosChat.Talk.Requests
import AcosChat.Talk.Delivery
import AcosChat.Talk.Lines
import AcosChat.Talk.Authors
