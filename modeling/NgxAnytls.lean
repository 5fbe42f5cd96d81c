import NgxAnytls.Protocol
import NgxAnytls.SocksAddr
import NgxAnytls.SessionCore
import NgxAnytls.State
import NgxAnytls.Output
import NgxAnytls.Input
import NgxAnytls.Stream
import NgxAnytls.ClientMux
import NgxAnytls.Upstream
import NgxAnytls.Uot
import NgxAnytls.UpstreamMux
import NgxAnytls.Fallback
import NgxAnytls.Session
import NgxAnytls.View
import NgxAnytls.Sane
import NgxAnytls.Refinement
import NgxAnytls.SendRefinement
import NgxAnytls.UpstreamRefinement
import NgxAnytls.Calls
import NgxAnytls.DispatchRefinement
import NgxAnytls.SessionRefinement
import NgxAnytls.StateOrder
import NgxAnytls.Records
import NgxAnytls.StreamClose
import NgxAnytls.Library.Ledger
import NgxAnytls.OutputLists
import NgxAnytls.Accounting
import NgxAnytls.Wire
import NgxAnytls.InputFlow
import NgxAnytls.InputOrder
import NgxAnytls.FrameEffects
import NgxAnytls.Finalize
import NgxAnytls.Library.Probing
import NgxAnytls.StreamTable
import NgxAnytls.HeldInput
import NgxAnytls.Relay
import NgxAnytls.Uplink
import NgxAnytls.UplinkOrder
import NgxAnytls.AuthSplit
import NgxAnytls.CoreProtocol
import NgxAnytls.SocksEncode
import NgxAnytls.FirstPsh
import NgxAnytls.UotPacket
import NgxAnytls.UotUplink
import NgxAnytls.PlainHttp
import NgxAnytls.PlainHttpSplit
import NgxAnytls.PlainHttpGrammar
import NgxAnytls.Library.Loop
import NgxAnytls.ReadVisit
import NgxAnytls.DrainReads
import NgxAnytls.Library.KeyedQueue
import NgxAnytls.UotQueue
import NgxAnytls.UotSlots
import NgxAnytls.UotSlotFrames
import NgxAnytls.UotSlotSteps
import NgxAnytls.UotSlotCalls
import NgxAnytls.UotSlotMux
import NgxAnytls.UotSlotEvents
import NgxAnytls.UotSlotRun
import NgxAnytls.Library.Cursor
import NgxAnytls.SettingsGrammar
import NgxAnytls.PaddingScheme
import NgxAnytls.ParserLaw
import NgxAnytls.Library.Watchdog
import NgxAnytls.UotIdle
import NgxAnytls.UpstreamSend
import NgxAnytls.BufferBounds
import NgxAnytls.FinClose
import NgxAnytls.Library.FreeList
import NgxAnytls.Recycling
import NgxAnytls.SessionBooks
import NgxAnytls.SessionBooksFrames
import NgxAnytls.SessionBooksOutput
import NgxAnytls.SessionBooksRun
import NgxAnytls.SessionBooksUplink
import NgxAnytls.SessionAccounts
import NgxAnytls.SessionOrder
import NgxAnytls.SessionMemory
import NgxAnytls.SessionRelease
import NgxAnytls.Unauthenticated
import NgxAnytls.UplinkClose
import NgxAnytls.Wiring.UpstreamState
import NgxAnytls.Wiring.PlainHttpPhase
import NgxAnytls.Wiring.StreamModule
