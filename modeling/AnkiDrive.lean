import AnkiDrive.Lib.Patch
import AnkiDrive.Lib.Records
import AnkiDrive.Lib.Walk
import AnkiDrive.Lib.Frames
import AnkiDrive.Lib.Registry
import AnkiDrive.Loops
import AnkiDrive.Reads
import AnkiDrive.VehicleTest
import AnkiDrive.Walkers
import AnkiDrive.ScanArray
import AnkiDrive.History
import AnkiDrive.LocalName
import AnkiDrive.RoundTrip
import AnkiDrive.Commands
import AnkiDrive.Announce
import AnkiDrive.Orders
import AnkiDrive.Handles
import AnkiDrive.Discovery
import AnkiDrive.VehicleResponse
import AnkiDrive.Responses
import AnkiDrive.LightNames
import AnkiDrive.Notify
import AnkiDrive.Arguments
import AnkiDrive.Numbers
import AnkiDrive.EngineLights
import AnkiDrive.AnkiUtil
import AnkiDrive.BytesToHex
import AnkiDrive.Hexdump
import AnkiDrive.Lib.Links
import AnkiDrive.Uthash
import AnkiDrive.Buckets
import AnkiDrive.Doubling
import AnkiDrive.Crowding
import AnkiDrive.HashTables
import AnkiDrive.HashRuns
import AnkiDrive.ScanTable
import AnkiDrive.Lib.Machine
import AnkiDrive.Att
import AnkiDrive.Gattrib
import AnkiDrive.Outstanding
import AnkiDrive.Moves
import AnkiDrive.Wakeups
import AnkiDrive.Callbacks
import AnkiDrive.Exchange
import AnkiDrive.Alignment
import AnkiDrive.Settling
import AnkiDrive.Lib.Dialogue
import AnkiDrive.Lib.Codec
import AnkiDrive.Lib.Paging
import AnkiDrive.AttPdu
import AnkiDrive.AttLists
import AnkiDrive.GattRead
import AnkiDrive.GattWrite
import AnkiDrive.Uuid
import AnkiDrive.GattDiscover
