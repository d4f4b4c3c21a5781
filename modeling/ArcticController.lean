import ArcticController.History.EventCrash
import ArcticController.Energy.TimeWeighted
import ArcticController.Energy.TimeOff
import ArcticController.Energy.CommitSafe
import ArcticController.Auth.PairingRuns
import ArcticController.Auth.TokenFence
import ArcticController.Auth.RevocationRuns
import ArcticController.Auth.SessionRuns
import ArcticController.Perf.SaveInterrupted
import ArcticController.Perf.SensorRuns
import ArcticController.Control.CommandsOnce
import ArcticController.Integration.HttpResponse
import ArcticController.Bus.BusQuiet
import ArcticController.Log.SnapshotRuns
import ArcticController.Control.EventsMirror
import ArcticController.Tls.TlsPairs
import ArcticController.Perf.NoticeRuns
import ArcticController.Perf.SensorRequests
import ArcticController.Bacnet.BrowseOwnData
import ArcticController.Screen.AdlerBlocks
import ArcticController.Screen.PngDecodes
import ArcticController.Ota.CommittedRuns
import ArcticController.Energy.Checkpoints
import ArcticController.Energy.RunsHandedOver
import ArcticController.Wifi.RestartsHappen
import ArcticController.Reset.NothingLeft
import ArcticController.Integration.PushProtocol
import ArcticController.Energy.OutdoorAverages
import ArcticController.History.OlderRuns
import ArcticController.History.FaultUpright
import ArcticController.Control.FaultNoticeRuns
import ArcticController.Perf.SelectorRuns
import ArcticController.Energy.RunsApart
import ArcticController.Perf.OutageTiming
import ArcticController.Wifi.DropRuns
import ArcticController.Perf.MbtcpFrame
import ArcticController.Bacnet.RequestRoundTrip
import ArcticController.Bacnet.ValueWriter
import ArcticController.Bacnet.AckExact
import ArcticController.Bacnet.MultipleExact
import ArcticController.Energy.RunSets
import ArcticController.Naming.DeviceName
import ArcticController.Naming.DhcpHostname
import ArcticController.Log.LogPolling
import ArcticController.Log.TailText
import ArcticController.Wifi.RoamPolicy
import ArcticController.Integration.WeatherRefresh
import ArcticController.Control.ErrorRuns
import ArcticController.Wifi.GatewayOutage
import ArcticController.Control.ApiWrites
