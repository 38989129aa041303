/-!
# Constants of the protocol

The values of `include/server/defines.h` and `include/client/defines.h`.
-/
namespace AcosChat

def msgHeaderSize : Nat := 5

def msgStatusOk : Nat := 0
def msgStatusInvalidType : Nat := 1
def msgStatusUnauthorized : Nat := 2
def msgStatusAuthError : Nat := 3
def msgStatusRegError : Nat := 4
def msgStatusAccessError : Nat := 5
def msgStatusInvalidMsg : Nat := 6

/-- `'r'` -/
def messageServerRegular : UInt8 := 114
/-- `'m'` -/
def messageServerMeta : UInt8 := 109
/-- `'s'` -/
def messageServerStatus : UInt8 := 115
/-- `'h'` -/
def messageServerHistory : UInt8 := 104
/-- `'l'` -/
def messageServerList : UInt8 := 108
/-- `'k'` -/
def messageServerKick : UInt8 := 107

/-- `'r'` -/
def messageClientRegular : UInt8 := 114
/-- `'i'` -/
def messageClientLogin : UInt8 := 105
/-- `'o'` -/
def messageClientLogout : UInt8 := 111
/-- `'h'` -/
def messageClientHistory : UInt8 := 104
/-- `'l'` -/
def messageClientList : UInt8 := 108
/-- `'k'` -/
def messageClientKick : UInt8 := 107
/-- `'@'` -/
def messageClientInternal : UInt8 := 64

def maxHistoryLength : Int := 50

def nullUid : Int32 := 0
def rootUid : Int32 := 1

end AcosChat
