import NetBoard.Board
import NetBoard.Main
import NetBoard.Sniffer
import NetBoard.Proofs.Beat.Octets
import NetBoard.Proofs.Beat.Realign
import NetBoard.Proofs.Beat.Stride
import NetBoard.Proofs.Header.Packetizer
import NetBoard.Proofs.Header.Depacketizer
import NetBoard.Proofs.Checksum
import NetBoard.Proofs.Checksum.Reference
import NetBoard.Proofs.Header.Fields
import NetBoard.Proofs.Header.Codec
import NetBoard.Proofs.Header.Streams
import NetBoard.Proofs.Icmp.EchoReply
import NetBoard.Proofs.Icmp.Service
import NetBoard.Proofs.Pipe
import NetBoard.Proofs.Arp.Machine
import NetBoard.Proofs.Arp.Lookups
import NetBoard.Proofs.Etherbone.Interpreter
import NetBoard.Proofs.Etherbone.Serving
import NetBoard.Proofs.Etherbone.Refinement
import NetBoard.Proofs.Address
import NetBoard.Proofs.Crc32
import NetBoard.Proofs.Crc32.Standard
import NetBoard.Proofs.Crossbar
import NetBoard.Proofs.Delivery
import NetBoard.Proofs.Crossbar.Conservation
import NetBoard.Proofs.Crossbar.Progress
import NetBoard.Proofs.Arp.Message
import NetBoard.Proofs.Arp.Cache
import NetBoard.Proofs.Arp.Eviction
import NetBoard.Proofs.Arp.Transitions
import NetBoard.Proofs.Arp.Provenance
import NetBoard.Proofs.Arp.Deeds
import NetBoard.Proofs.Arp.Retries
import NetBoard.Proofs.Ip.NextHop
import NetBoard.Proofs.Ip.Fragments
import NetBoard.Proofs.Ip.Accounting
import NetBoard.Proofs.Ip.Reception
import NetBoard.Proofs.Streamer.Conservation
import NetBoard.Proofs.Datapath.Stack
import NetBoard.Proofs.Dhcp.Options
import NetBoard.Proofs.Dhcp.Message
import NetBoard.Proofs.Dhcp.Replies
import NetBoard.Proofs.Dhcp.Exchange
import NetBoard.Proofs.Dhcp.Deadline
import NetBoard.Proofs.Checked.Machine
import NetBoard.Proofs.Checked.Beat
import NetBoard.Proofs.Checked.Stages
import NetBoard.Proofs.Checked.Sums
import NetBoard.Proofs.Checked.Link
import NetBoard.Proofs.Checked.Resolver
import NetBoard.Proofs.Checked.Network
import NetBoard.Proofs.Checked.Transport
import NetBoard.Proofs.Checked.Client
import NetBoard.Proofs.Checked.Endpoint
import NetBoard.Proofs.Checked.Streamer
import NetBoard.Proofs.Checked.Stack
import NetBoard.Proofs.Ethernet.Spacing
import NetBoard.Proofs.Ethernet.Framing
import NetBoard.Proofs.Settling.Load
import NetBoard.Proofs.Settling.Crossbar
import NetBoard.Proofs.Settling.Link
import NetBoard.Proofs.Settling.Network
import NetBoard.Proofs.Settling.Transport
import NetBoard.Proofs.Settling.Users
import NetBoard.Proofs.Settling.Stack
import NetBoard.Proofs.Settling.Board
import NetBoard.Proofs.Board.Lifecycle
import NetBoard.Proofs.Udp.Conservation
import NetBoard.Proofs.Udp.Opening
import NetBoard.Proofs.Etherbone.Walk
import NetBoard.Proofs.Config.Address
