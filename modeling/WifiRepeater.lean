import WifiRepeater.Lib.Script
import WifiRepeater.Lib.Machine
import WifiRepeater.Lib.CString
import WifiRepeater.Lib.Coupled
import WifiRepeater.Lib.TtlQueue
import WifiRepeater.Lib.RingBuffer
import WifiRepeater.Lib.KeySlots
import WifiRepeater.Lib.Recent
import WifiRepeater.Lib.TornRecent
import WifiRepeater.Lib.FirstByKey
import WifiRepeater.Lib.Js
import WifiRepeater.Lib.Stringify
import WifiRepeater.Lib.Chunked
import WifiRepeater.Lib.Html.Tokenizer
import WifiRepeater.Lib.Html.Steps
import WifiRepeater.Lib.Html.Attributes
import WifiRepeater.Lib.Html.Text
import WifiRepeater.Lib.Html.Pieces
import WifiRepeater.Lib.Html.Tree
import WifiRepeater.Lib.Html.Template
import WifiRepeater.Dns.Message
import WifiRepeater.Dns.Key
import WifiRepeater.Dns.Cache
import WifiRepeater.Dns.Proxy
import WifiRepeater.Dns.Upstream
import WifiRepeater.Dns.Captive
import WifiRepeater.Dns.Lifecycle
import WifiRepeater.Dns.Log
import WifiRepeater.Dns.Latency
import WifiRepeater.Dns.Service
import WifiRepeater.Lib.Checked
import WifiRepeater.Lib.Rfc1035
import WifiRepeater.Dns.Access
import WifiRepeater.Dns.Answers
import WifiRepeater.Dns.QuestionEnd
import WifiRepeater.Config.Nvs
import WifiRepeater.Config.Manager
import WifiRepeater.Config.Save
import WifiRepeater.Config.History
import WifiRepeater.Config.RecentSsids
import WifiRepeater.Config.TornHistory
import WifiRepeater.Config.Auth
import WifiRepeater.Config.Sections
import WifiRepeater.Config.Login
import WifiRepeater.Web.Request
import WifiRepeater.Web.Handlers
import WifiRepeater.Web.ConfigPost
import WifiRepeater.Web.OutOfRange
import WifiRepeater.Web.Server
import WifiRepeater.Web.Pieces
import WifiRepeater.Web.Dashboard
import WifiRepeater.Web.PickTag
import WifiRepeater.Web.ScannedNetworks
import WifiRepeater.Web.Scan
import WifiRepeater.Device.Repeater
import WifiRepeater.Device.Button
import WifiRepeater.Device.Provisioned
import WifiRepeater.Device.AccessPoint
import WifiRepeater.Device.Clients
import WifiRepeater.Device.Attribution
import WifiRepeater.Device.Monitor
import WifiRepeater.Device.Traffic
import WifiRepeater.Device.Uplink
import WifiRepeater.Device.Counters
import WifiRepeater.Web.LoggedNames
import WifiRepeater.Web.Network
import WifiRepeater.Web.Cards
import WifiRepeater.Json.Literal
import WifiRepeater.Json.Strings
import WifiRepeater.Json.Parse
import WifiRepeater.Json.Front
import WifiRepeater.Json.Print
import WifiRepeater.Json.RoundTrip
import WifiRepeater.Json.FromJs
import WifiRepeater.Web.ConfigJson
import WifiRepeater.Web.SaveSettings
import WifiRepeater.Web.Passwords
import WifiRepeater.Web.LoginDialog
import WifiRepeater.Web.StaticFile
