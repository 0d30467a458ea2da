import Mathlib.Algebra.Order.Ring.Nat
import Mathlib.Data.List.Basic

/-!
# Address classes (src/network.cpp)
-/

namespace MidnightSun.Net

/-- `boost::asio::ip::address`. -/
inductive Address where
  | v4 (addr : BitVec 32)
  | v6 (addr : BitVec 128)
  deriving DecidableEq

/-- `normalize_address`: an address of the block `::ffff:0:0/96` is the IPv4 address it maps. -/
def normalizeAddress : Address → Address
  | .v4 a => .v4 a
  | .v6 a => if a >>> 32 = 0xffff then .v4 (a.setWidth 32) else .v6 a

/-- `make_network_v4(addr/len).hosts()` has the address: the network and the broadcast address are no hosts. -/
def hostOf4 (addr : BitVec 32) (len : ℕ) (a : BitVec 32) : Bool :=
  let size := 2 ^ (32 - len)
  addr.toNat < a.toNat && a.toNat < addr.toNat + size - 1

/-- `make_network_v6(addr/len).hosts()` has the address: these are all addresses of the network. -/
def hostOf6 (addr : BitVec 128) (len : ℕ) (a : BitVec 128) : Bool :=
  addr.toNat ≤ a.toNat && a.toNat < addr.toNat + 2 ^ (128 - len)

/-- `net_e`. -/
inductive NetE where
  | pc
  | lan
  | wan
  deriving DecidableEq

/-- `from_address`. -/
def fromAddress (address : Address) : NetE :=
  match normalizeAddress address with
  | .v6 a =>
    if hostOf6 1 128 a then .pc
    else if hostOf6 (0xfc#128 <<< 120) 7 a || hostOf6 (0xfe80#128 <<< 112) 64 a then .lan
    else .wan
  | .v4 a =>
    if hostOf4 0x7f000000 8 a then .pc
    else if hostOf4 0xc0a80000 16 a || hostOf4 0xac100000 12 a || hostOf4 0x0a000000 8 a ||
        hostOf4 0x64400000 10 a || hostOf4 0xa9fe0000 16 a then .lan
    else .wan

/-- The values of `lan_encryption_mode` and `wan_encryption_mode`. -/
inductive EncryptionMode where
  | never
  | opportunistic
  | mandatory
  deriving DecidableEq

/-- `config::stream`, as far as it decides on encryption. -/
structure EncryptionConfig where
  lanEncryptionMode : EncryptionMode := .never
  wanEncryptionMode : EncryptionMode := .opportunistic

/-- `encryption_mode_for_address`. -/
def encryptionModeForAddress (config : EncryptionConfig) (address : Address) : EncryptionMode :=
  match fromAddress address with
  | .pc | .lan => config.lanEncryptionMode
  | .wan => config.wanEncryptionMode

end MidnightSun.Net
