/-
  NetBoard.CommandLine.Program
  ────────────────────────────
  **NAMES, FLAGS AND FIXED TEXTS OF THE PROGRAM.**

  What the program calls itself, the flags it knows, and the texts it prints
  that depend on nothing else.
-/
import NetBoard.CommandLine.Usage

namespace NetBoard

open CommandLine

namespace Program

/-- The name of the program. -/
def name : String := "rEtherd"

/-- The version of the program. -/
def version : String := "0.1.0"

/-- The name in large letters. -/
def banner : String :=
  "\n".intercalate
    ["",
     "       _____ _   _                  _",
     "  _ __| ____| |_| |__   ___ _ __ __| |",
     " | '__|  _| | __| '_ \\ / _ \\ '__/ _` |",
     " | |  | |___| |_| | | |  __/ | | (_| |",
     " |_|  |_____|\\__|_| |_|\\___|_|  \\__,_|",
     ""]

/-- How the program is called. -/
def brief : String :=
  s!"Usage: {name} -m 0 -i INTERFACE [-d LEVEL]\n       {name} -m 1|2 [-c FILE] [-d LEVEL]"

/-- The modes of operation and what a board is. -/
def modes : String :=
  "\n".intercalate
    ["",
     "Modes:",
     "  0  sniffer: print a one-line summary of every Ethernet frame seen on INTERFACE",
     "  1  boards: run the boards of the configuration file in the foreground",
     "  2  daemon: same as 1, detached, with pid file and log files",
     "",
     "Each [[board]] section of the configuration file emulates one Ethernet device",
     "(MAC, ARP, IPv4, ICMP echo, UDP, DHCP client, Etherbone target and UDP streamer)",
     "answering on the interface it names. CTRL-C stops the boards and restores the",
     "interfaces flags.",
     ""]

/-- The flags of the program. -/
def flags : List Flag :=
  [{ short := 'h', long := "help", argument := none
     help := "print this help and the operation modes" },
   { short := 'V', long := "version", argument := none
     help := "print the version and exit" },
   { short := 'm', long := "mode", argument := some "MODE"
     help := "0 (sniffer), 1 (boards) or 2 (boards as a daemon)" },
   { short := 'i', long := "iface", argument := some "INTERFACE"
     help := "interface to sniff on, required by mode 0" },
   { short := 'c', long := "conf", argument := some "FILE"
     help := "boards configuration file (default /etc/retherd/retherd.conf)" },
   { short := 'd', long := "debug", argument := some "LEVEL"
     help := "log verbosity, overrides the configuration file:\n"
       ++ "0 (none), 1 (low), 2 (medium), 3 (high, with hex dumps), 5 (every layer transition)" }]

/-- The help text. -/
def help : String := usage brief flags ++ modes

end Program
end NetBoard
