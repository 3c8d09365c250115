import Kubebpfbox.Lib.Bytes

/-!
# Frames and their headers

The frame a socket filter runs on, `bpf_skb_load_bytes`, and the fields of the two header structs
that `ebpf/http/http.c` reads.  The program is built for amd64, so a header field holds the word a
little-endian machine loads; `bpfNtohs` swaps it.

A load that passes the end of the frame fails and leaves its destination cleared.  The header
structs are loaded whole, so a frame that ends inside one reads as a header of zeros.
-/

namespace Kubebpfbox.Http

open Bytes

/-- A frame, from its Ethernet header on. -/
structure SkBuff where
  data : List UInt8
  deriving DecidableEq, Repr

/-- `-EFAULT`. -/
def efault : ℤ := -14

/-- `bpf_skb_load_bytes`: the result, and what the destination holds afterwards. -/
def bpfSkbLoadBytes (skb : SkBuff) (offset : UInt32) (len : ℕ) : ℤ × Vector UInt8 len :=
  if offset.toNat + len ≤ skb.data.length then
    (0, Vector.ofFn fun i => skb.data.getD (offset.toNat + i) 0)
  else (efault, Vector.replicate len 0)

/-- `bpf_ntohs`. -/
def bpfNtohs (w : UInt16) : UInt16 := swap16 w

/-- The size of an Ethernet header, `ETH_HLEN`. -/
def ethHlen : UInt32 := 14

/-- `ETH_P_IP`. -/
def ethPIp : UInt16 := 0x0800

/-- `IPPROTO_TCP`. -/
def ipprotoTcp : UInt8 := 6

/-- `offsetof(struct ethhdr, h_proto)`. -/
def offsetofHProto : UInt32 := 12

/-- `offsetof(struct iphdr, protocol)`. -/
def offsetofProtocol : UInt32 := 9

/-- `sizeof(struct iphdr)`. -/
def sizeofIphdr : ℕ := 20

/-- `sizeof(struct tcphdr)`. -/
def sizeofTcphdr : ℕ := 20

/-- The fields of `struct iphdr` the program reads. -/
structure Iphdr where
  ihl : UInt8
  totLen : UInt16
  saddr : UInt32
  daddr : UInt32

/-- `struct iphdr` in memory: `ihl` is the low half of the first byte. -/
def Iphdr.ofBytes (b : Vector UInt8 sizeofIphdr) : Iphdr where
  ihl := b[0] &&& 0x0f
  totLen := le16 b[2] b[3]
  saddr := le32 b[12] b[13] b[14] b[15]
  daddr := le32 b[16] b[17] b[18] b[19]

/-- The fields of `struct tcphdr` the program reads. -/
structure Tcphdr where
  source : UInt16
  dest : UInt16
  doff : UInt8

/-- `struct tcphdr` in memory: `doff` is the high half of byte 12. -/
def Tcphdr.ofBytes (b : Vector UInt8 sizeofTcphdr) : Tcphdr where
  source := le16 b[0] b[1]
  dest := le16 b[2] b[3]
  doff := b[12] >>> 4

namespace SkBuff

/-- The EtherType, as it lies in memory. -/
def ethProto (skb : SkBuff) : UInt16 :=
  let b := (bpfSkbLoadBytes skb offsetofHProto 2).2
  le16 b[0] b[1]

/-- The protocol number of the IP header. -/
def ipProto (skb : SkBuff) : UInt8 := (bpfSkbLoadBytes skb (ethHlen + offsetofProtocol) 1).2[0]

/-- The IP header. -/
def iphdr (skb : SkBuff) : Iphdr := Iphdr.ofBytes (bpfSkbLoadBytes skb ethHlen sizeofIphdr).2

/-- The TCP header that starts at `offset`. -/
def tcphdr (skb : SkBuff) (offset : UInt32) : Tcphdr :=
  Tcphdr.ofBytes (bpfSkbLoadBytes skb offset sizeofTcphdr).2

/-- The frame carries TCP over IPv4. -/
def IsTcpIpv4 (skb : SkBuff) : Prop := bpfNtohs skb.ethProto = ethPIp ∧ skb.ipProto = ipprotoTcp

instance (skb : SkBuff) : Decidable skb.IsTcpIpv4 := inferInstanceAs (Decidable (_ ∧ _))

end SkBuff

/-! ### What a load gives -/

theorem getElem_bpfSkbLoadBytes {skb : SkBuff} {offset : UInt32} {len : ℕ}
    (h : offset.toNat + len ≤ skb.data.length) (i : ℕ) (hi : i < len) :
    (bpfSkbLoadBytes skb offset len).2[i] = skb.data.getD (offset.toNat + i) 0 := by
  simp [bpfSkbLoadBytes, h]

theorem bpfSkbLoadBytes_of_lt {skb : SkBuff} {offset : UInt32} {len : ℕ}
    (h : skb.data.length < offset.toNat + len) :
    bpfSkbLoadBytes skb offset len = (efault, Vector.replicate len 0) := by
  simp [bpfSkbLoadBytes, Nat.not_le.mpr h]

end Kubebpfbox.Http
