import GhitaBrowser.Js.StepBudget
import GhitaBrowser.Js.Finally
import GhitaBrowser.Page.TimerLaw
import GhitaBrowser.Page.HostIds
import GhitaBrowser.Page.ClickProbes
import GhitaBrowser.Page.ObserverLaw
import GhitaBrowser.Runtime.Collection
import GhitaBrowser.Runtime.Reactions
import GhitaBrowser.Storage.Interleavings
import GhitaBrowser.Net.BundleLaw
import GhitaBrowser.Css.SheetSafety
import GhitaBrowser.Css.MatchLaw
import GhitaBrowser.Messaging.BroadcastChannel
import GhitaBrowser.Ipc.Channel
import GhitaBrowser.Realtime.EventStreamLaw
import GhitaBrowser.Realtime.ReadyState
import GhitaBrowser.Packages.PackagePath
import GhitaBrowser.Net.PreflightLaw
import GhitaBrowser.Net.CredentialLaw
import GhitaBrowser.Net.FetchQueueLaw
import GhitaBrowser.Net.Admission
import GhitaBrowser.Runtime.EventLoop
import GhitaBrowser.Media.AppendUndo
import GhitaBrowser.Storage.SuffixLaw
import GhitaBrowser.Wasm.MemoryBounds
import GhitaBrowser.Tabs.PageLaw
import GhitaBrowser.Storage.CookieCaps
import GhitaBrowser.Storage.KeyOrder
import GhitaBrowser.Live.Refusal
import GhitaBrowser.Updater.Versions
import GhitaBrowser.Wasm.LebLaw
import GhitaBrowser.Html.Entities
import GhitaBrowser.Tabs.SessionLaw
import GhitaBrowser.Storage.BookmarkLaw
import GhitaBrowser.Live.Query
import GhitaBrowser.Css.MathValue
