import G7Ctrl.Core.Runs
import G7Ctrl.Core.Framing
import G7Ctrl.Core.Ring
import G7Ctrl.Core.Xml
import G7Ctrl.Core.Json
import G7Ctrl.Core.Csv
import G7Ctrl.Core.Captures
import G7Ctrl.Core.Keyed
import G7Ctrl.Core.Memory
import G7Ctrl.Core.OrderedMap
import G7Ctrl.Xstr.Block
import G7Ctrl.Xstr.Split
import G7Ctrl.Xstr.Number
import G7Ctrl.Xstr.Copy
import G7Ctrl.Xstr.Trim
import G7Ctrl.Xstr.Fold
import G7Ctrl.Command.Queue
import G7Ctrl.Command.Reply
import G7Ctrl.Command.ReplyMemory
import G7Ctrl.Command.ReplyFormat
import G7Ctrl.Command.Gprs
import G7Ctrl.Command.Outgoing
import G7Ctrl.Command.Emulator
import G7Ctrl.Command.Device
import G7Ctrl.Command.Slots
import G7Ctrl.Command.SlotRelease
import G7Ctrl.Command.ReplySafety
import G7Ctrl.Command.Exchange
import G7Ctrl.Command.OwnAnswer
import G7Ctrl.Clients.Table
import G7Ctrl.Clients.Target
import G7Ctrl.Clients.Server
import G7Ctrl.Clients.ServerTable
import G7Ctrl.Clients.TargetLiveness
import G7Ctrl.Clients.Reconnect
import G7Ctrl.Tracker.Package
import G7Ctrl.Tracker.Stream
import G7Ctrl.Tracker.ChunkIndependence
import G7Ctrl.Tracker.SplitLoop
import G7Ctrl.Store.Locations
import G7Ctrl.Store.AllOrNothing
import G7Ctrl.Store.Records
import G7Ctrl.Store.Ingestion
import G7Ctrl.Store.LocBuff
import G7Ctrl.Store.Batches
import G7Ctrl.Store.Download
import G7Ctrl.Shell.Words
import G7Ctrl.Shell.ActionScript
import G7Ctrl.Usb.Watcher
import G7Ctrl.Usb.Consistency
import G7Ctrl.Geocache.AddressCache
import G7Ctrl.Geocache.CacheRing
import G7Ctrl.Geocache.CacheFile
import G7Ctrl.Geocache.Persistence
import G7Ctrl.Export.ResultSet
import G7Ctrl.Export.ListGrowth
import G7Ctrl.Export.Gpx
import G7Ctrl.Export.XmlExports
import G7Ctrl.Export.PropXml
import G7Ctrl.Export.JsonCsv
import G7Ctrl.Export.Filters
import G7Ctrl.Nicks.RoundTrip
import G7Ctrl.Assoc.RoundTrip
import G7Ctrl.Assoc.Runs
import G7Ctrl.Template.Expand
import G7Ctrl.Template.WorkBuffer
import G7Ctrl.Mail.Attachment
import G7Ctrl.Mail.Transparency
import G7Ctrl.Command.ReplyFields
import G7Ctrl.Command.LocationReplies
import G7Ctrl.Store.DownloadBounds
import G7Ctrl.Tracker.KeepAlive
import G7Ctrl.Geocache.QuotaBlock
import G7Ctrl.Clients.Listing
import G7Ctrl.Presets.Func
import G7Ctrl.Presets.Refresh
import G7Ctrl.Command.CmdArgs
import G7Ctrl.Command.IntPrompt
import G7Ctrl.Command.ArgPlaces
import G7Ctrl.Command.Password
import G7Ctrl.Serial.ReadLine
import G7Ctrl.Shell.ReadWrite
import G7Ctrl.Mail.Recipients
import G7Ctrl.Mail.Base64Decode
import G7Ctrl.Core.QuotedPrintable
import G7Ctrl.Mail.QprintLines
import G7Ctrl.Shell.Escaped
import G7Ctrl.Mail.SystemMail
import G7Ctrl.Mail.Parts
import G7Ctrl.Mail.SentMail
import G7Ctrl.Core.EncodedWord
import G7Ctrl.Mail.Subject
import G7Ctrl.Mail.SplitReply
import G7Ctrl.Mail.RecipientLists
import G7Ctrl.Assoc.Import
import G7Ctrl.Geocache.Backup
import G7Ctrl.Geocache.MinimapName
import G7Ctrl.Geocache.Counts
import G7Ctrl.Export.Bounds
import G7Ctrl.Xstr.NumberRange
import G7Ctrl.Xstr.UrlCode
import G7Ctrl.Xstr.SplitMemory
import G7Ctrl.Xstr.Multibyte
import G7Ctrl.Xstr.Padding
import G7Ctrl.Table.Colspan
import G7Ctrl.Table.Output
import G7Ctrl.Table.Bounds
import G7Ctrl.Table.Geometry
import G7Ctrl.Core.SlotTable
import G7Ctrl.Core.Scanf
import G7Ctrl.Config.Dictionary
import G7Ctrl.Config.IniParser
import G7Ctrl.Config.IniDocument
import G7Ctrl.Config.IniDump
import G7Ctrl.Config.Settings
import G7Ctrl.Config.Configured
import G7Ctrl.Config.Reload
import G7Ctrl.Presets.Use
import G7Ctrl.Geocache.AddressOrigin
import G7Ctrl.Files.Lockfile
