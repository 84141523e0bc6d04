import SojCivicLight.Library.Loop
import SojCivicLight.Library.Memory
import SojCivicLight.Library.Blocks
import SojCivicLight.Library.Lanes
import SojCivicLight.Library.Run
import SojCivicLight.Yespower.Simd
import SojCivicLight.Yespower.Scalar
import SojCivicLight.Yespower.Tables
import SojCivicLight.Yespower.TwoWay
import SojCivicLight.Yespower.LaneKernels
import SojCivicLight.Yespower.Agreement
import SojCivicLight.Yespower.Kernels
import SojCivicLight.Yespower.Simulation
import SojCivicLight.Yespower.Hash
import SojCivicLight.Yespower.TwoLane
import SojCivicLight.Yespower.SharedLanes
import SojCivicLight.Yespower.OneWay
import SojCivicLight.CivicLight.Sha256
import SojCivicLight.CivicLight.PowHash
import SojCivicLight.Util.Hex
import SojCivicLight.Util.HexMask
import SojCivicLight.Util.Endian
import SojCivicLight.Stratum.Context
import SojCivicLight.Stratum.Notify
import SojCivicLight.Stratum.Methods
import SojCivicLight.Stratum.Transport
import SojCivicLight.Stratum.GenWork
import SojCivicLight.Stratum.Extranonce
import SojCivicLight.Stratum.Session
import SojCivicLight.Stratum.Reauth
import SojCivicLight.Stratum.LiveJob
import SojCivicLight.Stratum.PreReauthJob
import SojCivicLight.Mining.Scanhash
import SojCivicLight.Stratum.Submit
import SojCivicLight.Mining.ScanExact
import SojCivicLight.Mining.NewWork
import SojCivicLight.Mining.Threads
import SojCivicLight.Mining.Ranges
import SojCivicLight.Mining.Current
import SojCivicLight.Mining.System
import SojCivicLight.Mining.JobIds
import SojCivicLight.Mining.Pause
import SojCivicLight.Library.Lines
import SojCivicLight.Stratum.RecvLine
import SojCivicLight.Mining.Workio
import SojCivicLight.Yespower.FourWay
import SojCivicLight.Yespower.FourLanes
import SojCivicLight.Yespower.Advance
import SojCivicLight.Yespower.FourStart
import SojCivicLight.Yespower.TableLog
import SojCivicLight.Yespower.MixLog
import SojCivicLight.Yespower.FourAgree
import SojCivicLight.Stratum.BlockHeight
import SojCivicLight.Stratum.Counter
import SojCivicLight.Mining.Handover
import SojCivicLight.Mining.Sentinel
import SojCivicLight.Stratum.Shares
import SojCivicLight.Stratum.Pointers
import SojCivicLight.Jansson.Load
import SojCivicLight.Jansson.TextLength
import SojCivicLight.Jansson.PlainText
import SojCivicLight.Stratum.SubmitLine
import SojCivicLight.CivicLight.Streaming
import SojCivicLight.CivicLight.Stats
import SojCivicLight.Util.Difficulty
import SojCivicLight.Yespower.Platform
import SojCivicLight.Library.Circular
import SojCivicLight.Mining.Queue
import SojCivicLight.Library.Bits
import SojCivicLight.Library.RingBuffer
import SojCivicLight.Yespower.FillLog
import SojCivicLight.Yespower.TableAccess
import SojCivicLight.Yespower.TwoWayVariants
import SojCivicLight.Cli.PoolUrl
import SojCivicLight.Library.Sha2
import SojCivicLight.Library.Hmac
import SojCivicLight.CivicLight.Fips
import SojCivicLight.CivicLight.ShaNi
import SojCivicLight.CivicLight.ShaNeon
import SojCivicLight.CivicLight.SphSha2
import SojCivicLight.Yespower.YpSha256
import SojCivicLight.Yespower.YpHmac
import SojCivicLight.Yespower.YpPbkdf2
import SojCivicLight.CivicLight.SphMd
import SojCivicLight.Library.RoMix
import SojCivicLight.Yespower.Portable
import SojCivicLight.Yespower.Functional
import SojCivicLight.Yespower.TableRefine
import SojCivicLight.Yespower.MixRefine
import SojCivicLight.Yespower.FillRefine
import SojCivicLight.Yespower.SmixRefine
import SojCivicLight.Yespower.HashRefine
import SojCivicLight.CivicLight.Reference
import SojCivicLight.Mining.ScanReference
import SojCivicLight.Jansson.Dump
import SojCivicLight.Jansson.Utf8
import SojCivicLight.Jansson.DumpString
import SojCivicLight.Jansson.DumpNumber
import SojCivicLight.Jansson.RoundTrip
import SojCivicLight.Jansson.Loaded
import SojCivicLight.Stratum.SendLine
import SojCivicLight.Stratum.Replies
import SojCivicLight.Jansson.Hashtable
import SojCivicLight.Jansson.TableMap
