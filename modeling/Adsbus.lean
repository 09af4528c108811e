import Adsbus.Core.ListSweep
import Adsbus.Core.Rand
import Adsbus.Flow.Counting
import Adsbus.Flow.FramedLink
import Adsbus.Flow.HopCounting
import Adsbus.Flow.Journey
import Adsbus.Flow.JsonStream
import Adsbus.Flow.ProtoGrammar
import Adsbus.Flow.Provenance
import Adsbus.Flow.Readings
import Adsbus.Flow.Receive
import Adsbus.Flow.Restored
import Adsbus.Flow.SendWrite
import Adsbus.Formats.Agree
import Adsbus.Formats.ClockRate
import Adsbus.Formats.Grammar
import Adsbus.Formats.MlatLink
import Adsbus.Formats.RecordLink
import Adsbus.Formats.Relay
import Adsbus.Sinks.Delivery
import Adsbus.Start.Options
import Adsbus.Transport.Exec
import Adsbus.Transport.Log
import Adsbus.Transport.Ownership
import Adsbus.Transport.Resolution
import Adsbus.Transport.Retry
import Adsbus.Transport.Shutdown
import Adsbus.Transport.Standard
import Adsbus.Transport.Truncation
import Adsbus.Transport.Wakeup
