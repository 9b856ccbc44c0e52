import Nodeflow.Tree.Basic

/-!
# New identifiers

A supply hands out identifiers by counting nodes, ports and connections, each on their own. The
kind of thing that an identifier names is kept in its upper bits, so identifiers of one supply are
all different.
-/

namespace Nodeflow

/-- The numbers of nodes, ports and connections that have been given an identifier. -/
structure Supply where
  nodes : Nat := 0
  ports : Nat := 0
  connections : Nat := 0
  /-- The upper half of the identifiers of connections. -/
  connectionHigh : UInt64 := 0
  deriving Repr, Inhabited

namespace Supply

/-- How many numbers there are within one kind. -/
abbrev range : Nat := 0x1000000000000

def uuid (kind : UInt64) (number : Nat) : Uuid :=
  ⟨0, kind <<< 48 ||| UInt64.ofNat (number % range)⟩

/-- The number of an identifier within one kind, if it is of that kind. -/
def number? (kind : UInt64) (id : Uuid) : Option Nat :=
  if id.high = 0 && id.low >>> 48 = kind then some (id.low.toNat % range) else none

def nodeId (number : Nat) : NodeId := ⟨uuid 1 number⟩

def portId (number : Nat) : PortId := ⟨uuid 2 number⟩

def connectionId (number : Nat) : ConnectionId := ⟨uuid 3 number⟩

def newNode (s : Supply) (t : NodeType) : Node × Supply :=
  (t.instantiate (nodeId s.nodes) fun i => portId (s.ports + i),
    { s with nodes := s.nodes + 1, ports := s.ports + t.portCount })

def newPort (s : Supply) : PortId × Supply := (portId s.ports, { s with ports := s.ports + 1 })

def nextConnection (s : Supply) : ConnectionId :=
  ⟨{ (connectionId s.connections).uuid with high := s.connectionHigh }⟩

def useConnection (s : Supply) : Supply := { s with connections := s.connections + 1 }

end Supply

end Nodeflow
