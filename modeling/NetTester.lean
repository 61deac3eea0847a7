import NetTester.Machine
import NetTester.SendPattern
import NetTester.SliceBudget
import NetTester.Bandwidth
import NetTester.HalfClose
import NetTester.VerifiedStream
import NetTester.Datagrams
import NetTester.StreamProgress
import NetTester.Finished
import NetTester.ExitStatus
import NetTester.FirstFailure
import NetTester.Closing
import NetTester.HandlerAllocator
import NetTester.VerifyFirst
import NetTester.TestDuration
import NetTester.SendTermination
import NetTester.SizeReading
import NetTester.Cpu
import NetTester.Resolve
import NetTester.Report
import NetTester.CoreText
import NetTester.ZeroBandwidth
import NetTester.ConnectFailure
import NetTester.Outstanding
import NetTester.TestTimer
import NetTester.Causes
import NetTester.FinalStatistics
import NetTester.HalfClosedOnce
import NetTester.Interleaving
import NetTester.ExitPrompt
import NetTester.TrueStream
import NetTester.CalmPair
import NetTester.OneWay
import NetTester.DatagramLoss
import NetTester.DatagramOrder
import NetTester.Exchange
import NetTester.ExchangeRefined
import NetTester.CommandLine
import NetTester.WrittenLines
import NetTester.Main
