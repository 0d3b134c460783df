import RecoNIC.Arithmetic.Crc

/-!
# The tables of the ICRC

`icrc.sv` computes the CRC of 512, 320 or 32 bits in one cycle.  Each bit of the result is
an exclusive or of bits of `d`, the data, and of bits of `c`, the CRC so far.  A row has
two masks for `d`, the upper one from bit 256 on, and one for `c`: the terms of one
assignment.  Rows stand as in the source, the one for bit 31 first.

All three tables compute the reflected CRC-32, the lowest bit of the data first.
-/

namespace RecoNIC
namespace Icrc

/-- A row: `d[k]` is a term if bit `k` of `dHigh`, `dLow` is set, and `c[k]` if bit `k` of
`c` is. -/
structure XorRow where
  dHigh : Nat
  dLow : Nat
  c : Nat

/-- The row as one mask, the bits of `c` behind the `n` bits of `d`. -/
def XorRow.mask (n : Nat) (r : XorRow) : Nat := r.dHigh * 2 ^ 256 + r.dLow + r.c * 2 ^ n

/-- `stage_crc512_crc`. -/
def crc512Rows : List XorRow := [
  ⟨0x826880efa40da72d78c17d03f5a36f178bc1851a6378032be771ea80ba241089,
    0x54cc6d13abfb4697e18776dc4732caa43bcb8dcab2806c08e826ca8df2ff0e3b, 0xf2ff0e3b⟩,
  ⟨0xc35cc098760b74bbc4a1c3820f72d89c4e21479752c402be14c91fc0e73618cd,
    0xfeaa5b9a7e06e5dc1144cdb264abaff6262e4b2febc05a0c9c35afcb0b808926, 0x0b808926⟩,
  ⟨0xe3c6e0a39f081d709a919cc2f21a0359acd126d1ca1a0274ed156560c9bf1cef,
    0xab9940de94f83479e925100575671d5f28dca85d4760410ea63c1d68773f4aa8, 0x773f4aa8⟩,
  ⟨0x71e37051cf840eb84d48ce61790d01acd6689368e50d013a768ab2b064df8e77,
    0xd5cca06f4a7c1a3cf4928802bab38eaf946e542ea3b02087531e0eb43b9fa554, 0x3b9fa554⟩,
  ⟨0xba9938c743cfa0715e651a334925efc1e0f5ccae11fe83b6dc34b3d8884bd7b2,
    0xbe2a3d240ec54b899bce32dd1a6b0df3f1fca7dde3587c4b41a9cdd7ef30dc91, 0xef30dc91⟩,
  ⟨0xdf241c8c05ea7715d7f3f01a513198f77bbb634d6b8742f0896bb36cfe01fb50,
    0x0bd97381ac99e3532c606fb2ca074c5dc335de24432c522d48f22c6605676073, 0x05676073⟩,
  ⟨0x6f920e4602f53b8aebf9f80d2898cc7bbdddb1a6b5c3a17844b5d9b67f00fda8,
    0x05ecb9c0d64cf1a9963037d96503a62ee19aef1221962916a479163302b3b039, 0x02b3b039⟩,
  ⟨0xb5a187cca5773ae80d3d810561ef092a552f5dc93999d397c52b065b85a46e5d,
    0x563a31f3c0dd3e432a9f6d30f5b319b34b06fa43a24b7883ba1a419473a6d627, 0x73a6d627⟩,
  ⟨0xd8b84309f6b63a597e5fbd814554eb82a1562bfeffb4eae005e469ad78f627a7,
    0xffd175ea4b95d9b674c8c0443deb467d9e48f0eb63a5d049352bea47cb2c6528, 0xcb2c6528⟩,
  ⟨0x6c5c2184fb5b1d2cbf2fdec0a2aa75c150ab15ff7fda757002f234d6bc7b13d3,
    0xffe8baf525caecdb3a6460221ef5a33ecf247875b1d2e8249a95f523e5963294, 0xe5963294⟩,
  ⟨0xb446902dd9a029bb27569263a4f655f723940fe5dc953993e608f0ebe4199960,
    0xab383069391e30fa7cb546cd48481b3b5c59b1f06a69181aa56c301c00341771, 0x00341771⟩,
  ⟨0xd84bc8f948ddb3f0eb6a343227d845ec1a0b82e88d329fe2147592f54828dc39,
    0x0150752737745eeadfddd5bae316c73995e7553287b4e005ba90d283f2e50583, 0xf2e50583⟩,
  ⟨0xee4d649300637ed50d74671ae64f4de186c4446e25e14cdaed4b23fa1e307e95,
    0xd4645780304169e28e699c0136b9a938f1382753f15a1c0a356ea3cc0b8d8cfa, 0x0b8d8cfa⟩,
  ⟨0x7726b2498031bf6a86ba338d7327a6f0c362223712f0a66d76a591fd0f183f4a,
    0xea322bc01820b4f14734ce009b5cd49c789c13a9f8ad0e051ab751e605c6c67d, 0x05c6c67d⟩,
  ⟨0x3b935924c018dfb5435d19c6b993d37861b1111b89785336bb52c8fe878c1fa5,
    0x751915e00c105a78a39a67004dae6a4e3c4e09d4fc5687028d5ba8f302e3633e, 0x02e3633e⟩,
  ⟨0x1dc9ac92600c6fdaa1ae8ce35cc9e9bc30d8888dc4bc299b5da9647f43c60fd2,
    0xba8c8af006082d3c51cd338026d735271e2704ea7e2b438146add4798171b19f, 0x8171b19f⟩,
  ⟨0x8c8c56a6940b90c028163b725bc79bc993adc15c812617e649a558bf1bc71760,
    0x098a286ba8ff5009c961ef1c54595037b4d80fbf8d95cdc84b7020b13247d6f4, 0x3247d6f4⟩,
  ⟨0x46462b534a05c860140b1db92de3cde4c9d6e0ae40930bf324d2ac5f8de38bb0,
    0x04c51435d47fa804e4b0f78e2a2ca81bda6c07dfc6cae6e425b810589923eb7a, 0x9923eb7a⟩,
  ⟨0x232315a9a502e4300a058edc96f1e6f264eb7057204985f99269562fc6f1c5d8,
    0x02628a1aea3fd40272587bc71516540ded3603efe365737212dc082c4c91f5bd, 0x4c91f5bd⟩,
  ⟨0x11918ad4d28172180502c76e4b78f3793275b82b9024c2fcc934ab17e378e2ec,
    0x0131450d751fea01392c3de38a8b2a06f69b01f7f1b2b9b9096e04162648fade, 0x2648fade⟩,
  ⟨0x08c8c56a6940b90c028163b725bc79bc993adc15c812617e649a558bf1bc7176,
    0x0098a286ba8ff5009c961ef1c54595037b4d80fbf8d95cdc84b7020b13247d6f, 0x13247d6f⟩,
  ⟨0x046462b534a05c860140b1db92de3cde4c9d6e0ae40930bf324d2ac5f8de38bb,
    0x004c51435d47fa804e4b0f78e2a2ca81bda6c07dfc6cae6e425b810589923eb7, 0x89923eb7⟩,
  ⟨0x805ab1b53e5d896e786125ee3ccc7178ad8f321f117c9b747e577fe2464b0cd4,
    0xd4ea45b20558bbd7c6a2f1603663afe4e518edf44cb63b3fc90b0a0f36361160, 0x36361160⟩,
  ⟨0xc245d8353b23639a44f1eff4ebc557abdd061c15ebc64e91d85a5571990196e3,
    0x3eb94fcaa9571b7c02d60e6c5c031d564947fb3094db71970ca34f8a69e4068b, 0x69e4068b⟩,
  ⟨0x6122ec1a9d91b1cd2278f7fa75e2abd5ee830e0af5e32748ec2d2ab8cc80cb71,
    0x9f5ca7e554ab8dbe016b07362e018eab24a3fd984a6db8cb8651a7c534f20345, 0x34f20345⟩,
  ⟨0x3091760d4ec8d8e6913c7bfd3af155eaf74187057af193a47616955c664065b8,
    0xcfae53f2aa55c6df00b5839b1700c7559251fecc2536dc65c328d3e29a7901a2, 0x9a7901a2⟩,
  ⟨0x9a203be90369cb5e305f40fd68dbc5e2f0614698de00caf9dc7aa02e89042255,
    0x331b44eafed1a5f861ddb711ccb2a90ef2e372aca01b023a09b2a37cbfc38eea, 0xbfc38eea⟩,
  ⟨0x4d101df481b4e5af182fa07eb46de2f17830a34c6f00657cee3d50174482112a,
    0x998da2757f68d2fc30eedb88e65954877971b956500d811d04d951be5fe1c775, 0x5fe1c775⟩,
  ⟨0x26880efa40da72d78c17d03f5a36f178bc1851a6378032be771ea80ba2410895,
    0x4cc6d13abfb4697e18776dc4732caa43bcb8dcab2806c08e826ca8df2ff0e3ba, 0x2ff0e3ba⟩,
  ⟨0x1344077d206d396bc60be81fad1b78bc5e0c28d31bc0195f3b8f5405d120844a,
    0xa663689d5fda34bf0c3bb6e239965521de5c6e55940360474136546f97f871dd, 0x97f871dd⟩,
  ⟨0x09a203be90369cb5e305f40fd68dbc5e2f0614698de00caf9dc7aa02e8904225,
    0x5331b44eafed1a5f861ddb711ccb2a90ef2e372aca01b023a09b2a37cbfc38ee, 0xcbfc38ee⟩,
  ⟨0x04d101df481b4e5af182fa07eb46de2f17830a34c6f00657cee3d50174482112,
    0xa998da2757f68d2fc30eedb88e65954877971b956500d811d04d951be5fe1c77, 0xe5fe1c77⟩]

/-- `stage_crc320_crc`. -/
def crc320Rows : List XorRow := [
  ⟨0x826880efa40da72d,
    0x78c17d03f5a36f178bc1851a6378032be771ea80ba24108954cc6d13abfb4697, 0xabfb4697⟩,
  ⟨0xc35cc098760b74bb,
    0xc4a1c3820f72d89c4e21479752c402be14c91fc0e73618cdfeaa5b9a7e06e5dc, 0x7e06e5dc⟩,
  ⟨0xe3c6e0a39f081d70,
    0x9a919cc2f21a0359acd126d1ca1a0274ed156560c9bf1cefab9940de94f83479, 0x94f83479⟩,
  ⟨0x71e37051cf840eb8,
    0x4d48ce61790d01acd6689368e50d013a768ab2b064df8e77d5cca06f4a7c1a3c, 0x4a7c1a3c⟩,
  ⟨0xba9938c743cfa071,
    0x5e651a334925efc1e0f5ccae11fe83b6dc34b3d8884bd7b2be2a3d240ec54b89, 0x0ec54b89⟩,
  ⟨0xdf241c8c05ea7715,
    0xd7f3f01a513198f77bbb634d6b8742f0896bb36cfe01fb500bd97381ac99e353, 0xac99e353⟩,
  ⟨0x6f920e4602f53b8a,
    0xebf9f80d2898cc7bbdddb1a6b5c3a17844b5d9b67f00fda805ecb9c0d64cf1a9, 0xd64cf1a9⟩,
  ⟨0xb5a187cca5773ae8,
    0x0d3d810561ef092a552f5dc93999d397c52b065b85a46e5d563a31f3c0dd3e43, 0xc0dd3e43⟩,
  ⟨0xd8b84309f6b63a59,
    0x7e5fbd814554eb82a1562bfeffb4eae005e469ad78f627a7ffd175ea4b95d9b6, 0x4b95d9b6⟩,
  ⟨0x6c5c2184fb5b1d2c,
    0xbf2fdec0a2aa75c150ab15ff7fda757002f234d6bc7b13d3ffe8baf525caecdb, 0x25caecdb⟩,
  ⟨0xb446902dd9a029bb,
    0x27569263a4f655f723940fe5dc953993e608f0ebe4199960ab383069391e30fa, 0x391e30fa⟩,
  ⟨0xd84bc8f948ddb3f0,
    0xeb6a343227d845ec1a0b82e88d329fe2147592f54828dc390150752737745eea, 0x37745eea⟩,
  ⟨0xee4d649300637ed5,
    0x0d74671ae64f4de186c4446e25e14cdaed4b23fa1e307e95d4645780304169e2, 0x304169e2⟩,
  ⟨0x7726b2498031bf6a,
    0x86ba338d7327a6f0c362223712f0a66d76a591fd0f183f4aea322bc01820b4f1, 0x1820b4f1⟩,
  ⟨0x3b935924c018dfb5,
    0x435d19c6b993d37861b1111b89785336bb52c8fe878c1fa5751915e00c105a78, 0x0c105a78⟩,
  ⟨0x1dc9ac92600c6fda,
    0xa1ae8ce35cc9e9bc30d8888dc4bc299b5da9647f43c60fd2ba8c8af006082d3c, 0x06082d3c⟩,
  ⟨0x8c8c56a6940b90c0,
    0x28163b725bc79bc993adc15c812617e649a558bf1bc71760098a286ba8ff5009, 0xa8ff5009⟩,
  ⟨0x46462b534a05c860,
    0x140b1db92de3cde4c9d6e0ae40930bf324d2ac5f8de38bb004c51435d47fa804, 0xd47fa804⟩,
  ⟨0x232315a9a502e430,
    0x0a058edc96f1e6f264eb7057204985f99269562fc6f1c5d802628a1aea3fd402, 0xea3fd402⟩,
  ⟨0x11918ad4d2817218,
    0x0502c76e4b78f3793275b82b9024c2fcc934ab17e378e2ec0131450d751fea01, 0x751fea01⟩,
  ⟨0x08c8c56a6940b90c,
    0x028163b725bc79bc993adc15c812617e649a558bf1bc71760098a286ba8ff500, 0xba8ff500⟩,
  ⟨0x046462b534a05c86,
    0x0140b1db92de3cde4c9d6e0ae40930bf324d2ac5f8de38bb004c51435d47fa80, 0x5d47fa80⟩,
  ⟨0x805ab1b53e5d896e,
    0x786125ee3ccc7178ad8f321f117c9b747e577fe2464b0cd4d4ea45b20558bbd7, 0x0558bbd7⟩,
  ⟨0xc245d8353b23639a,
    0x44f1eff4ebc557abdd061c15ebc64e91d85a5571990196e33eb94fcaa9571b7c, 0xa9571b7c⟩,
  ⟨0x6122ec1a9d91b1cd,
    0x2278f7fa75e2abd5ee830e0af5e32748ec2d2ab8cc80cb719f5ca7e554ab8dbe, 0x54ab8dbe⟩,
  ⟨0x3091760d4ec8d8e6,
    0x913c7bfd3af155eaf74187057af193a47616955c664065b8cfae53f2aa55c6df, 0xaa55c6df⟩,
  ⟨0x9a203be90369cb5e,
    0x305f40fd68dbc5e2f0614698de00caf9dc7aa02e89042255331b44eafed1a5f8, 0xfed1a5f8⟩,
  ⟨0x4d101df481b4e5af,
    0x182fa07eb46de2f17830a34c6f00657cee3d50174482112a998da2757f68d2fc, 0x7f68d2fc⟩,
  ⟨0x26880efa40da72d7,
    0x8c17d03f5a36f178bc1851a6378032be771ea80ba24108954cc6d13abfb4697e, 0xbfb4697e⟩,
  ⟨0x1344077d206d396b,
    0xc60be81fad1b78bc5e0c28d31bc0195f3b8f5405d120844aa663689d5fda34bf, 0x5fda34bf⟩,
  ⟨0x09a203be90369cb5,
    0xe305f40fd68dbc5e2f0614698de00caf9dc7aa02e89042255331b44eafed1a5f, 0xafed1a5f⟩,
  ⟨0x04d101df481b4e5a,
    0xf182fa07eb46de2f17830a34c6f00657cee3d50174482112a998da2757f68d2f, 0x57f68d2f⟩]

/-- `stage_crc32_crc[0]`, and the same for each later stage with its own
32 bits of the data. -/
def crc32Rows : List XorRow := [
  ⟨0, 0x826880ef, 0x826880ef⟩,
  ⟨0, 0xc35cc098, 0xc35cc098⟩,
  ⟨0, 0xe3c6e0a3, 0xe3c6e0a3⟩,
  ⟨0, 0x71e37051, 0x71e37051⟩,
  ⟨0, 0xba9938c7, 0xba9938c7⟩,
  ⟨0, 0xdf241c8c, 0xdf241c8c⟩,
  ⟨0, 0x6f920e46, 0x6f920e46⟩,
  ⟨0, 0xb5a187cc, 0xb5a187cc⟩,
  ⟨0, 0xd8b84309, 0xd8b84309⟩,
  ⟨0, 0x6c5c2184, 0x6c5c2184⟩,
  ⟨0, 0xb446902d, 0xb446902d⟩,
  ⟨0, 0xd84bc8f9, 0xd84bc8f9⟩,
  ⟨0, 0xee4d6493, 0xee4d6493⟩,
  ⟨0, 0x7726b249, 0x7726b249⟩,
  ⟨0, 0x3b935924, 0x3b935924⟩,
  ⟨0, 0x1dc9ac92, 0x1dc9ac92⟩,
  ⟨0, 0x8c8c56a6, 0x8c8c56a6⟩,
  ⟨0, 0x46462b53, 0x46462b53⟩,
  ⟨0, 0x232315a9, 0x232315a9⟩,
  ⟨0, 0x11918ad4, 0x11918ad4⟩,
  ⟨0, 0x08c8c56a, 0x08c8c56a⟩,
  ⟨0, 0x046462b5, 0x046462b5⟩,
  ⟨0, 0x805ab1b5, 0x805ab1b5⟩,
  ⟨0, 0xc245d835, 0xc245d835⟩,
  ⟨0, 0x6122ec1a, 0x6122ec1a⟩,
  ⟨0, 0x3091760d, 0x3091760d⟩,
  ⟨0, 0x9a203be9, 0x9a203be9⟩,
  ⟨0, 0x4d101df4, 0x4d101df4⟩,
  ⟨0, 0x26880efa, 0x26880efa⟩,
  ⟨0, 0x1344077d, 0x1344077d⟩,
  ⟨0, 0x09a203be, 0x09a203be⟩,
  ⟨0, 0x04d101df, 0x04d101df⟩]

/-- The next CRC for `n` bits of data. -/
def nextCrc {n : Nat} (rows : List XorRow) (d : BitVec n) (c : BitVec 32) : BitVec 32 :=
  Crc.ofMasks 32 (n + 32) (rows.reverse.map (XorRow.mask n)) (Crc.vars d c)

/-! ## What they compute -/

/-- The polynomial 0x04C11DB7, its bits in reverse. -/
def polynomial : BitVec 32 := 0xEDB88320

/-- The bits of a word, the lowest first. -/
def dataBits {n : Nat} (d : BitVec n) : List Bool := (List.range n).map fun k => d.getLsbD k

theorem crc512Rows_eq :
    crc512Rows.reverse.map (XorRow.mask 512) = Crc.symbolic polynomial 512 := by
  decide +kernel

theorem crc320Rows_eq :
    crc320Rows.reverse.map (XorRow.mask 320) = Crc.symbolic polynomial 320 := by
  decide +kernel

theorem crc32Rows_eq :
    crc32Rows.reverse.map (XorRow.mask 32) = Crc.symbolic polynomial 32 := by
  decide +kernel

section Next

variable (c : BitVec 32)

/-- The 512 bits of a full word. -/
theorem nextCrc_crc512Rows (d : BitVec 512) :
    nextCrc crc512Rows d c = Crc.run polynomial c (dataBits d) := by
  rw [nextCrc, crc512Rows_eq, Crc.ofMasks_symbolic (by decide), dataBits]

/-- The 320 bits of a word with a header only. -/
theorem nextCrc_crc320Rows (d : BitVec 320) :
    nextCrc crc320Rows d c = Crc.run polynomial c (dataBits d) := by
  rw [nextCrc, crc320Rows_eq, Crc.ofMasks_symbolic (by decide), dataBits]

/-- 32 bits. -/
theorem nextCrc_crc32Rows (d : BitVec 32) :
    nextCrc crc32Rows d c = Crc.run polynomial c (dataBits d) := by
  rw [nextCrc, crc32Rows_eq, Crc.ofMasks_symbolic (by decide), dataBits]

end Next

end Icrc
end RecoNIC
