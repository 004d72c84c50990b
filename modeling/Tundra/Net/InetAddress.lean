import Mathlib.Data.List.Basic
import Tundra.Util.Text

set_option autoImplicit false

/- net/InetAddress: an IPv4 address and a port, as the texts made from them need it. -/
namespace Tundra

/-- The octets of sin_addr in network order, and sin_port in host order. -/
structure InetAddress where
  octets : UInt8 × UInt8 × UInt8 × UInt8
  port : UInt16
deriving DecidableEq, Repr

namespace InetAddress

/-- inet_ntoa, the dotted decimal form. -/
def toIp (a : InetAddress) : Bytes :=
  decimal a.octets.1.toNat ++ ascii "." ++ decimal a.octets.2.1.toNat ++ ascii "." ++
    decimal a.octets.2.2.1.toNat ++ ascii "." ++ decimal a.octets.2.2.2.toNat

def toIpPort (a : InetAddress) : Bytes :=
  a.toIp ++ snprintf 8 (ascii ":" ++ decimal a.port.toNat)

theorem octet_length (octet : UInt8) : (decimal octet.toNat).length ≤ 3 := by
  have below := octet.toNat_lt
  exact decimal_length_le octet.toNat 3 (by omega) (by omega)

theorem toIp_length (a : InetAddress) : a.toIp.length ≤ 15 := by
  have first := octet_length a.octets.1
  have second := octet_length a.octets.2.1
  have third := octet_length a.octets.2.2.1
  have fourth := octet_length a.octets.2.2.2
  have dot : (ascii ".").length = 1 := rfl
  simp only [toIp, List.length_append, dot]
  omega

/-- A port has at most five digits, so the array holds all of them. -/
theorem toIpPort_eq (a : InetAddress) :
    a.toIpPort = a.toIp ++ ascii ":" ++ decimal a.port.toNat := by
  have below := a.port.toNat_lt
  have digits := decimal_length_le a.port.toNat 5 (by omega) (by omega)
  have colon : (ascii ":").length = 1 := rfl
  rw [toIpPort, snprintf_of_fits 8 _ (by rw [List.length_append]; omega), List.append_assoc]

theorem toIpPort_length (a : InetAddress) : a.toIpPort.length ≤ 22 := by
  have ip := toIp_length a
  have below := a.port.toNat_lt
  have digits := decimal_length_le a.port.toNat 5 (by omega) (by omega)
  have colon : (ascii ":").length = 1 := rfl
  simp only [toIpPort_eq, List.length_append, colon]
  omega

example : (InetAddress.mk (127, 0, 0, 1) 8080).toIpPort = ascii "127.0.0.1:8080" := by
  decide +kernel

end InetAddress
end Tundra
