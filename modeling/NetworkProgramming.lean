import NetworkProgramming.Lib.DeltaList
import NetworkProgramming.Lib.HashTable
import NetworkProgramming.Lib.Loop
import NetworkProgramming.Lib.Machine
import NetworkProgramming.Final.Header
import NetworkProgramming.Final.TimerRefinement
import NetworkProgramming.Final.Tcpd
import NetworkProgramming.Final.ByteStream
import NetworkProgramming.Final.Schedule
import NetworkProgramming.Final.Window
import NetworkProgramming.Final.Coverage
import NetworkProgramming.Final.Accounting
import NetworkProgramming.Final.Network
import NetworkProgramming.Final.Fleet
import NetworkProgramming.Final.TcpUdp
import NetworkProgramming.Final.HandOver
import NetworkProgramming.Final.Transfer
import NetworkProgramming.Final.Integrity
import NetworkProgramming.Final.Garbled
import NetworkProgramming.Final.Oldest
import NetworkProgramming.Final.Bounds
import NetworkProgramming.Final.Checksum
import NetworkProgramming.Final.Reassembly
import NetworkProgramming.Final.RecvCall
import NetworkProgramming.Final.FirstFrame
import NetworkProgramming.Final.Jacobson
import NetworkProgramming.Final.Attribution
import NetworkProgramming.Lib.Border
import NetworkProgramming.Lab1.ReadLoop
import NetworkProgramming.Lab2.Ftps
import NetworkProgramming.Proj1.AckProgress
import NetworkProgramming.Proj1.BackPressure
import NetworkProgramming.Proj1.Crc16
import NetworkProgramming.Proj1.Delivery
import NetworkProgramming.Proj1.Rto
import NetworkProgramming.Proj1.Timer
import NetworkProgramming.Final.MainLoop
import NetworkProgramming.Final.Recovery
import NetworkProgramming.Proj1.TimerProcess
import NetworkProgramming.Final.Undetected
import NetworkProgramming.Proj1.Undetected
import NetworkProgramming.Final.Completion
import NetworkProgramming.Proj1.Transfer
