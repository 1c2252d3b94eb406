import PicoLogicAnalyzer.Firmware.Freeze
import PicoLogicAnalyzer.Firmware.Requester
import PicoLogicAnalyzer.Firmware.Delivery
import PicoLogicAnalyzer.Firmware.ChainSession
import PicoLogicAnalyzer.Firmware.StreamSession
import PicoLogicAnalyzer.Firmware.Fidelity
import PicoLogicAnalyzer.Firmware.Progress
import PicoLogicAnalyzer.Firmware.Overruns
import PicoLogicAnalyzer.Firmware.Configuration
import PicoLogicAnalyzer.Firmware.Recovery
import PicoLogicAnalyzer.Lib.DataView
import PicoLogicAnalyzer.Page.Frames
import PicoLogicAnalyzer.Firmware.Blocks
import PicoLogicAnalyzer.Page.Gaps
import PicoLogicAnalyzer.Firmware.ChainDelivery
import PicoLogicAnalyzer.Firmware.StartFailures
import PicoLogicAnalyzer.Firmware.Formats
import PicoLogicAnalyzer.Page.Link
import PicoLogicAnalyzer.Page.Width
import PicoLogicAnalyzer.Firmware.Window
import PicoLogicAnalyzer.Page.Selection
import PicoLogicAnalyzer.Firmware.Dispatch
import PicoLogicAnalyzer.Firmware.Pacing
import PicoLogicAnalyzer.Firmware.Sampler
import PicoLogicAnalyzer.Firmware.SendBuffer
import PicoLogicAnalyzer.Firmware.Throughput
import PicoLogicAnalyzer.Page.Display
import PicoLogicAnalyzer.Page.Totals
import PicoLogicAnalyzer.Firmware.ChainCycle
import PicoLogicAnalyzer.Lib.Layout
import PicoLogicAnalyzer.Lib.Tlv
import PicoLogicAnalyzer.Page.Observer
import PicoLogicAnalyzer.Net.Dhserver
import PicoLogicAnalyzer.Net.DhcpOptions
import PicoLogicAnalyzer.Lib.Assign
import PicoLogicAnalyzer.Net.Leases
import PicoLogicAnalyzer.Lib.Labels
import PicoLogicAnalyzer.Net.DnsAnswers
import PicoLogicAnalyzer.Page.Log
import PicoLogicAnalyzer.Firmware.ChainProgress
