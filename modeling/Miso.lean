import Miso.Board.CC3100
import Miso.Zig.Triple
import Miso.Sd.Driver
import Miso.Sd.Discipline
import Miso.Sd.Card
import Miso.Sd.Device
import Miso.Sd.Array
import Miso.Fat.Volume
import Miso.Fat.Bytes
import Miso.Fat.Window
import Miso.Fat.Table
import Miso.Fat.Chains
import Miso.Fat.Allocation
import Miso.Boot.Authenticity
import Miso.Boot.Termination
import Miso.Boot.Fallback
import Miso.Boot.TaskRuns
import Miso.Boot.SizeRecord
import Miso.Boot.Image
import Miso.Boot.Backup
import Miso.Boot.FlashArea
import Miso.Boot.Candidate
import Miso.Boot.Hashes
import Miso.Net.TlsSpec
import Miso.Net.Opening
import Miso.Net.Timing
import Miso.Net.Ntp
import Miso.Lwm2m.Sessions
import Miso.Connectivity.User
import Miso.Connectivity.Wifi
import Miso.Lwm2m.Task
import Miso.Net.Responses
import Miso.Net.Waits
import Miso.Net.Deadlines
import Miso.Mqtt.TaskRuns
import Miso.Mqtt.FirstPacket
import Miso.Mqtt.Resources
import Miso.Mqtt.Pings
import Miso.Mqtt.Capacity
import Miso.Mqtt.AtMostOnce
import Miso.Mqtt.AtLeastOnce
import Miso.Mqtt.Identifiers
import Miso.Mqtt.Retransmission
import Miso.Mqtt.Buffers
import Miso.Mqtt.Completions
import Miso.Mqtt.Acknowledgements
import Miso.Mqtt.ExactlyOnce
import Miso.Mqtt.Framing
import Miso.Mqtt.Handling
import Miso.Zig.Fmt
import Miso.Zig.Decimal
import Miso.Zig.Fold
import Miso.Zig.Uri
import Miso.Zig.XorLinear
import Miso.Http.Client
import Miso.Http.Rfc7230
import Miso.Http.Steps
import Miso.Http.Download
import Miso.Http.Content
import Miso.Http.Traps
import Miso.Http.Ranges
import Miso.Http.Requests
import Miso.Http.Equivalences
import Miso.Http.Connections
import Miso.Http.Progress
import Miso.Http.Segments
import Miso.Config.Load
import Miso.Config.File
import Miso.Config.Boots
import Miso.Config.Writes
import Miso.Config.Steps
import Miso.Config.BaseObjects
import Miso.Config.Vouching
import Miso.Config.Strings
import Miso.Config.Uris
import Miso.Config.Cached
import Miso.Lwm2m.Server
import Miso.Lwm2m.Journal
import Miso.Fat.File
import Miso.Fat.Contents
import Miso.Fat.Transfers
import Miso.Fat.Reading
import Miso.Fat.Writing
import Miso.Fat.Seeking
import Miso.Fat.Truncating
import Miso.Fat.Syncing
import Miso.Fat.Mounting
import Miso.Fat.Sessions
import Miso.Fat.Faults
import Miso.Fat.OnCard
