namespace kcp_core.error

inductive KcpCoreError where
  | Protocol (message : String)
  | Buffer (message : String)
  | ConnectionLost
  deriving DecidableEq, Repr

abbrev KcpCoreResult (T : Type) := Except KcpCoreError T

def KcpCoreError.is_fatal : KcpCoreError → Bool
  | .ConnectionLost => true
  | _ => false

end kcp_core.error

namespace kcp_tokio.error

open kcp_core.error

inductive ConnectionError where
  | Closed
  | Lost
  deriving DecidableEq, Repr

def ConnectionError.to_string : ConnectionError → String
  | .Closed => "connection closed"
  | .Lost => "connection lost"

inductive KcpError where
  | Protocol (message : String)
  | Connection (kind : ConnectionError)
  | Buffer (message : String)
  | Config (message : String)
  deriving DecidableEq, Repr

namespace KcpError

def from_core : KcpCoreError → KcpError
  | .Protocol message => .Protocol message
  | .Buffer message => .Buffer message
  | .ConnectionLost => .Connection .Lost

def to_string : KcpError → String
  | .Protocol message => "Protocol error: " ++ message
  | .Connection kind => "Connection error: " ++ kind.to_string
  | .Buffer message => "Buffer error: " ++ message
  | .Config message => "Configuration error: " ++ message

end KcpError

end kcp_tokio.error
