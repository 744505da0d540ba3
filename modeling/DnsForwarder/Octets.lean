/-! Numbers as bytes in network order, the most significant byte first. -/

namespace DnsForwarder

abbrev Octets := List UInt8

def wordBytes (word : UInt16) : Octets :=
  [UInt8.ofNat (word.toNat / 256), UInt8.ofNat word.toNat]

def wordOfBytes (high low : UInt8) : UInt16 :=
  UInt16.ofNat (high.toNat * 256 + low.toNat)

def longBytes (long : UInt32) : Octets :=
  wordBytes (UInt16.ofNat (long.toNat / 65536)) ++
    wordBytes (UInt16.ofNat long.toNat)

def longOfWords (high low : UInt16) : UInt32 :=
  UInt32.ofNat (high.toNat * 65536 + low.toNat)

@[simp] theorem length_wordBytes (word : UInt16) :
    (wordBytes word).length = 2 := rfl

theorem wordOfBytes_wordBytes (word : UInt16) :
    wordOfBytes (UInt8.ofNat (word.toNat / 256)) (UInt8.ofNat word.toNat) =
      word := by
  have bound := word.toNat_lt
  apply UInt16.toNat_inj.mp
  simp only [wordOfBytes, UInt16.toNat_ofNat', UInt8.toNat_ofNat']
  omega

theorem longOfWords_halves (long : UInt32) :
    longOfWords (UInt16.ofNat (long.toNat / 65536)) (UInt16.ofNat long.toNat) =
      long := by
  have bound := long.toNat_lt
  apply UInt32.toNat_inj.mp
  simp only [longOfWords, UInt32.toNat_ofNat', UInt16.toNat_ofNat']
  omega

end DnsForwarder
