/-
  The CHARACTER DATA behind the Kotlin text functions of the client.

  Kotlin classifies and folds characters by the Unicode character database, and the client
  does both to text it does not control: a server name decides a storage id, a subscription's
  JSON decides what an outbound is.  So the model carries the data and does not stop at ASCII.

  A Kotlin `Char` is a UTF-16 unit, so a character above U+FFFF is two units that are neither
  letters nor white space.  `letterRanges` therefore ends at U+FFFF.  Case mapping is done on
  whole code points and its table goes on above it.  The one context rule of the mapping, the
  form of a capital sigma at the end of a word, is left out: both forms are letters.
-/
import Mathlib.Data.List.Basic

namespace OlcVpn.Kotlin

open List

/-- A run of the lower-case mapping: every `step`-th character from `first` to `last` maps to itself
    plus `delta`. -/
structure CaseRun where
  first : Nat
  last : Nat
  step : Nat
  delta : Int

/-- The run maps the character. -/
def CaseRun.covers (r : CaseRun) (n : Nat) : Bool :=
  r.first ≤ n && n ≤ r.last && (n - r.first) % r.step == 0

/-- Lower-case mappings outside ASCII. -/
def lowercaseRuns : List CaseRun :=
  [⟨0xc0,0xd6,1,32⟩, ⟨0xd8,0xde,1,32⟩, ⟨0x100,0x12e,2,1⟩, ⟨0x132,0x136,2,1⟩, ⟨0x139,0x147,2,1⟩,
   ⟨0x14a,0x176,2,1⟩, ⟨0x178,0x178,1,-121⟩, ⟨0x179,0x17d,2,1⟩, ⟨0x181,0x181,1,210⟩,
   ⟨0x182,0x184,2,1⟩, ⟨0x186,0x186,1,206⟩, ⟨0x187,0x187,1,1⟩, ⟨0x189,0x18a,1,205⟩,
   ⟨0x18b,0x18b,1,1⟩, ⟨0x18e,0x18e,1,79⟩, ⟨0x18f,0x18f,1,202⟩, ⟨0x190,0x190,1,203⟩,
   ⟨0x191,0x191,1,1⟩, ⟨0x193,0x193,1,205⟩, ⟨0x194,0x194,1,207⟩, ⟨0x196,0x196,1,211⟩,
   ⟨0x197,0x197,1,209⟩, ⟨0x198,0x198,1,1⟩, ⟨0x19c,0x19c,1,211⟩, ⟨0x19d,0x19d,1,213⟩,
   ⟨0x19f,0x19f,1,214⟩, ⟨0x1a0,0x1a4,2,1⟩, ⟨0x1a6,0x1a6,1,218⟩, ⟨0x1a7,0x1a7,1,1⟩,
   ⟨0x1a9,0x1a9,1,218⟩, ⟨0x1ac,0x1ac,1,1⟩, ⟨0x1ae,0x1ae,1,218⟩, ⟨0x1af,0x1af,1,1⟩,
   ⟨0x1b1,0x1b2,1,217⟩, ⟨0x1b3,0x1b5,2,1⟩, ⟨0x1b7,0x1b7,1,219⟩, ⟨0x1b8,0x1b8,1,1⟩,
   ⟨0x1bc,0x1bc,1,1⟩, ⟨0x1c4,0x1c4,1,2⟩, ⟨0x1c5,0x1c5,1,1⟩, ⟨0x1c7,0x1c7,1,2⟩, ⟨0x1c8,0x1c8,1,1⟩,
   ⟨0x1ca,0x1ca,1,2⟩, ⟨0x1cb,0x1db,2,1⟩, ⟨0x1de,0x1ee,2,1⟩, ⟨0x1f1,0x1f1,1,2⟩, ⟨0x1f2,0x1f4,2,1⟩,
   ⟨0x1f6,0x1f6,1,-97⟩, ⟨0x1f7,0x1f7,1,-56⟩, ⟨0x1f8,0x21e,2,1⟩, ⟨0x220,0x220,1,-130⟩,
   ⟨0x222,0x232,2,1⟩, ⟨0x23a,0x23a,1,10795⟩, ⟨0x23b,0x23b,1,1⟩, ⟨0x23d,0x23d,1,-163⟩,
   ⟨0x23e,0x23e,1,10792⟩, ⟨0x241,0x241,1,1⟩, ⟨0x243,0x243,1,-195⟩, ⟨0x244,0x244,1,69⟩,
   ⟨0x245,0x245,1,71⟩, ⟨0x246,0x24e,2,1⟩, ⟨0x370,0x372,2,1⟩, ⟨0x376,0x376,1,1⟩, ⟨0x37f,0x37f,1,116⟩,
   ⟨0x386,0x386,1,38⟩, ⟨0x388,0x38a,1,37⟩, ⟨0x38c,0x38c,1,64⟩, ⟨0x38e,0x38f,1,63⟩,
   ⟨0x391,0x3a1,1,32⟩, ⟨0x3a3,0x3ab,1,32⟩, ⟨0x3cf,0x3cf,1,8⟩, ⟨0x3d8,0x3ee,2,1⟩,
   ⟨0x3f4,0x3f4,1,-60⟩, ⟨0x3f7,0x3f7,1,1⟩, ⟨0x3f9,0x3f9,1,-7⟩, ⟨0x3fa,0x3fa,1,1⟩,
   ⟨0x3fd,0x3ff,1,-130⟩, ⟨0x400,0x40f,1,80⟩, ⟨0x410,0x42f,1,32⟩, ⟨0x460,0x480,2,1⟩,
   ⟨0x48a,0x4be,2,1⟩, ⟨0x4c0,0x4c0,1,15⟩, ⟨0x4c1,0x4cd,2,1⟩, ⟨0x4d0,0x52e,2,1⟩, ⟨0x531,0x556,1,48⟩,
   ⟨0x10a0,0x10c5,1,7264⟩, ⟨0x10c7,0x10c7,1,7264⟩, ⟨0x10cd,0x10cd,1,7264⟩, ⟨0x13a0,0x13ef,1,38864⟩,
   ⟨0x13f0,0x13f5,1,8⟩, ⟨0x1c90,0x1cba,1,-3008⟩, ⟨0x1cbd,0x1cbf,1,-3008⟩, ⟨0x1e00,0x1e94,2,1⟩,
   ⟨0x1e9e,0x1e9e,1,-7615⟩, ⟨0x1ea0,0x1efe,2,1⟩, ⟨0x1f08,0x1f0f,1,-8⟩, ⟨0x1f18,0x1f1d,1,-8⟩,
   ⟨0x1f28,0x1f2f,1,-8⟩, ⟨0x1f38,0x1f3f,1,-8⟩, ⟨0x1f48,0x1f4d,1,-8⟩, ⟨0x1f59,0x1f5f,2,-8⟩,
   ⟨0x1f68,0x1f6f,1,-8⟩, ⟨0x1f88,0x1f8f,1,-8⟩, ⟨0x1f98,0x1f9f,1,-8⟩, ⟨0x1fa8,0x1faf,1,-8⟩,
   ⟨0x1fb8,0x1fb9,1,-8⟩, ⟨0x1fba,0x1fbb,1,-74⟩, ⟨0x1fbc,0x1fbc,1,-9⟩, ⟨0x1fc8,0x1fcb,1,-86⟩,
   ⟨0x1fcc,0x1fcc,1,-9⟩, ⟨0x1fd8,0x1fd9,1,-8⟩, ⟨0x1fda,0x1fdb,1,-100⟩, ⟨0x1fe8,0x1fe9,1,-8⟩,
   ⟨0x1fea,0x1feb,1,-112⟩, ⟨0x1fec,0x1fec,1,-7⟩, ⟨0x1ff8,0x1ff9,1,-128⟩, ⟨0x1ffa,0x1ffb,1,-126⟩,
   ⟨0x1ffc,0x1ffc,1,-9⟩, ⟨0x2126,0x2126,1,-7517⟩, ⟨0x212a,0x212a,1,-8383⟩, ⟨0x212b,0x212b,1,-8262⟩,
   ⟨0x2132,0x2132,1,28⟩, ⟨0x2160,0x216f,1,16⟩, ⟨0x2183,0x2183,1,1⟩, ⟨0x24b6,0x24cf,1,26⟩,
   ⟨0x2c00,0x2c2f,1,48⟩, ⟨0x2c60,0x2c60,1,1⟩, ⟨0x2c62,0x2c62,1,-10743⟩, ⟨0x2c63,0x2c63,1,-3814⟩,
   ⟨0x2c64,0x2c64,1,-10727⟩, ⟨0x2c67,0x2c6b,2,1⟩, ⟨0x2c6d,0x2c6d,1,-10780⟩,
   ⟨0x2c6e,0x2c6e,1,-10749⟩, ⟨0x2c6f,0x2c6f,1,-10783⟩, ⟨0x2c70,0x2c70,1,-10782⟩,
   ⟨0x2c72,0x2c72,1,1⟩, ⟨0x2c75,0x2c75,1,1⟩, ⟨0x2c7e,0x2c7f,1,-10815⟩, ⟨0x2c80,0x2ce2,2,1⟩,
   ⟨0x2ceb,0x2ced,2,1⟩, ⟨0x2cf2,0x2cf2,1,1⟩, ⟨0xa640,0xa66c,2,1⟩, ⟨0xa680,0xa69a,2,1⟩,
   ⟨0xa722,0xa72e,2,1⟩, ⟨0xa732,0xa76e,2,1⟩, ⟨0xa779,0xa77b,2,1⟩, ⟨0xa77d,0xa77d,1,-35332⟩,
   ⟨0xa77e,0xa786,2,1⟩, ⟨0xa78b,0xa78b,1,1⟩, ⟨0xa78d,0xa78d,1,-42280⟩, ⟨0xa790,0xa792,2,1⟩,
   ⟨0xa796,0xa7a8,2,1⟩, ⟨0xa7aa,0xa7aa,1,-42308⟩, ⟨0xa7ab,0xa7ab,1,-42319⟩,
   ⟨0xa7ac,0xa7ac,1,-42315⟩, ⟨0xa7ad,0xa7ad,1,-42305⟩, ⟨0xa7ae,0xa7ae,1,-42308⟩,
   ⟨0xa7b0,0xa7b0,1,-42258⟩, ⟨0xa7b1,0xa7b1,1,-42282⟩, ⟨0xa7b2,0xa7b2,1,-42261⟩,
   ⟨0xa7b3,0xa7b3,1,928⟩, ⟨0xa7b4,0xa7c2,2,1⟩, ⟨0xa7c4,0xa7c4,1,-48⟩, ⟨0xa7c5,0xa7c5,1,-42307⟩,
   ⟨0xa7c6,0xa7c6,1,-35384⟩, ⟨0xa7c7,0xa7c9,2,1⟩, ⟨0xa7d0,0xa7d0,1,1⟩, ⟨0xa7d6,0xa7d8,2,1⟩,
   ⟨0xa7f5,0xa7f5,1,1⟩, ⟨0xff21,0xff3a,1,32⟩, ⟨0x10400,0x10427,1,40⟩, ⟨0x104b0,0x104d3,1,40⟩,
   ⟨0x10570,0x1057a,1,39⟩, ⟨0x1057c,0x1058a,1,39⟩, ⟨0x1058c,0x10592,1,39⟩, ⟨0x10594,0x10595,1,39⟩,
   ⟨0x10c80,0x10cb2,1,64⟩, ⟨0x118a0,0x118bf,1,32⟩, ⟨0x16e40,0x16e5f,1,32⟩, ⟨0x1e900,0x1e921,1,34⟩]

/-- Letters and decimal digits (general categories `L*` and `Nd`) from U+0080 to U+FFFF. -/
def letterRanges : List (Nat × Nat) :=
  [(0xaa,0xaa), (0xb5,0xb5), (0xba,0xba), (0xc0,0xd6), (0xd8,0xf6), (0xf8,0x2c1), (0x2c6,0x2d1),
   (0x2e0,0x2e4), (0x2ec,0x2ec), (0x2ee,0x2ee), (0x370,0x374), (0x376,0x377), (0x37a,0x37d),
   (0x37f,0x37f), (0x386,0x386), (0x388,0x38a), (0x38c,0x38c), (0x38e,0x3a1), (0x3a3,0x3f5),
   (0x3f7,0x481), (0x48a,0x52f), (0x531,0x556), (0x559,0x559), (0x560,0x588), (0x5d0,0x5ea),
   (0x5ef,0x5f2), (0x620,0x64a), (0x660,0x669), (0x66e,0x66f), (0x671,0x6d3), (0x6d5,0x6d5),
   (0x6e5,0x6e6), (0x6ee,0x6fc), (0x6ff,0x6ff), (0x710,0x710), (0x712,0x72f), (0x74d,0x7a5),
   (0x7b1,0x7b1), (0x7c0,0x7ea), (0x7f4,0x7f5), (0x7fa,0x7fa), (0x800,0x815), (0x81a,0x81a),
   (0x824,0x824), (0x828,0x828), (0x840,0x858), (0x860,0x86a), (0x870,0x887), (0x889,0x88e),
   (0x8a0,0x8c9), (0x904,0x939), (0x93d,0x93d), (0x950,0x950), (0x958,0x961), (0x966,0x96f),
   (0x971,0x980), (0x985,0x98c), (0x98f,0x990), (0x993,0x9a8), (0x9aa,0x9b0), (0x9b2,0x9b2),
   (0x9b6,0x9b9), (0x9bd,0x9bd), (0x9ce,0x9ce), (0x9dc,0x9dd), (0x9df,0x9e1), (0x9e6,0x9f1),
   (0x9fc,0x9fc), (0xa05,0xa0a), (0xa0f,0xa10), (0xa13,0xa28), (0xa2a,0xa30), (0xa32,0xa33),
   (0xa35,0xa36), (0xa38,0xa39), (0xa59,0xa5c), (0xa5e,0xa5e), (0xa66,0xa6f), (0xa72,0xa74),
   (0xa85,0xa8d), (0xa8f,0xa91), (0xa93,0xaa8), (0xaaa,0xab0), (0xab2,0xab3), (0xab5,0xab9),
   (0xabd,0xabd), (0xad0,0xad0), (0xae0,0xae1), (0xae6,0xaef), (0xaf9,0xaf9), (0xb05,0xb0c),
   (0xb0f,0xb10), (0xb13,0xb28), (0xb2a,0xb30), (0xb32,0xb33), (0xb35,0xb39), (0xb3d,0xb3d),
   (0xb5c,0xb5d), (0xb5f,0xb61), (0xb66,0xb6f), (0xb71,0xb71), (0xb83,0xb83), (0xb85,0xb8a),
   (0xb8e,0xb90), (0xb92,0xb95), (0xb99,0xb9a), (0xb9c,0xb9c), (0xb9e,0xb9f), (0xba3,0xba4),
   (0xba8,0xbaa), (0xbae,0xbb9), (0xbd0,0xbd0), (0xbe6,0xbef), (0xc05,0xc0c), (0xc0e,0xc10),
   (0xc12,0xc28), (0xc2a,0xc39), (0xc3d,0xc3d), (0xc58,0xc5a), (0xc5d,0xc5d), (0xc60,0xc61),
   (0xc66,0xc6f), (0xc80,0xc80), (0xc85,0xc8c), (0xc8e,0xc90), (0xc92,0xca8), (0xcaa,0xcb3),
   (0xcb5,0xcb9), (0xcbd,0xcbd), (0xcdd,0xcde), (0xce0,0xce1), (0xce6,0xcef), (0xcf1,0xcf2),
   (0xd04,0xd0c), (0xd0e,0xd10), (0xd12,0xd3a), (0xd3d,0xd3d), (0xd4e,0xd4e), (0xd54,0xd56),
   (0xd5f,0xd61), (0xd66,0xd6f), (0xd7a,0xd7f), (0xd85,0xd96), (0xd9a,0xdb1), (0xdb3,0xdbb),
   (0xdbd,0xdbd), (0xdc0,0xdc6), (0xde6,0xdef), (0xe01,0xe30), (0xe32,0xe33), (0xe40,0xe46),
   (0xe50,0xe59), (0xe81,0xe82), (0xe84,0xe84), (0xe86,0xe8a), (0xe8c,0xea3), (0xea5,0xea5),
   (0xea7,0xeb0), (0xeb2,0xeb3), (0xebd,0xebd), (0xec0,0xec4), (0xec6,0xec6), (0xed0,0xed9),
   (0xedc,0xedf), (0xf00,0xf00), (0xf20,0xf29), (0xf40,0xf47), (0xf49,0xf6c), (0xf88,0xf8c),
   (0x1000,0x102a), (0x103f,0x1049), (0x1050,0x1055), (0x105a,0x105d), (0x1061,0x1061),
   (0x1065,0x1066), (0x106e,0x1070), (0x1075,0x1081), (0x108e,0x108e), (0x1090,0x1099),
   (0x10a0,0x10c5), (0x10c7,0x10c7), (0x10cd,0x10cd), (0x10d0,0x10fa), (0x10fc,0x1248),
   (0x124a,0x124d), (0x1250,0x1256), (0x1258,0x1258), (0x125a,0x125d), (0x1260,0x1288),
   (0x128a,0x128d), (0x1290,0x12b0), (0x12b2,0x12b5), (0x12b8,0x12be), (0x12c0,0x12c0),
   (0x12c2,0x12c5), (0x12c8,0x12d6), (0x12d8,0x1310), (0x1312,0x1315), (0x1318,0x135a),
   (0x1380,0x138f), (0x13a0,0x13f5), (0x13f8,0x13fd), (0x1401,0x166c), (0x166f,0x167f),
   (0x1681,0x169a), (0x16a0,0x16ea), (0x16f1,0x16f8), (0x1700,0x1711), (0x171f,0x1731),
   (0x1740,0x1751), (0x1760,0x176c), (0x176e,0x1770), (0x1780,0x17b3), (0x17d7,0x17d7),
   (0x17dc,0x17dc), (0x17e0,0x17e9), (0x1810,0x1819), (0x1820,0x1878), (0x1880,0x1884),
   (0x1887,0x18a8), (0x18aa,0x18aa), (0x18b0,0x18f5), (0x1900,0x191e), (0x1946,0x196d),
   (0x1970,0x1974), (0x1980,0x19ab), (0x19b0,0x19c9), (0x19d0,0x19d9), (0x1a00,0x1a16),
   (0x1a20,0x1a54), (0x1a80,0x1a89), (0x1a90,0x1a99), (0x1aa7,0x1aa7), (0x1b05,0x1b33),
   (0x1b45,0x1b4c), (0x1b50,0x1b59), (0x1b83,0x1ba0), (0x1bae,0x1be5), (0x1c00,0x1c23),
   (0x1c40,0x1c49), (0x1c4d,0x1c7d), (0x1c80,0x1c88), (0x1c90,0x1cba), (0x1cbd,0x1cbf),
   (0x1ce9,0x1cec), (0x1cee,0x1cf3), (0x1cf5,0x1cf6), (0x1cfa,0x1cfa), (0x1d00,0x1dbf),
   (0x1e00,0x1f15), (0x1f18,0x1f1d), (0x1f20,0x1f45), (0x1f48,0x1f4d), (0x1f50,0x1f57),
   (0x1f59,0x1f59), (0x1f5b,0x1f5b), (0x1f5d,0x1f5d), (0x1f5f,0x1f7d), (0x1f80,0x1fb4),
   (0x1fb6,0x1fbc), (0x1fbe,0x1fbe), (0x1fc2,0x1fc4), (0x1fc6,0x1fcc), (0x1fd0,0x1fd3),
   (0x1fd6,0x1fdb), (0x1fe0,0x1fec), (0x1ff2,0x1ff4), (0x1ff6,0x1ffc), (0x2071,0x2071),
   (0x207f,0x207f), (0x2090,0x209c), (0x2102,0x2102), (0x2107,0x2107), (0x210a,0x2113),
   (0x2115,0x2115), (0x2119,0x211d), (0x2124,0x2124), (0x2126,0x2126), (0x2128,0x2128),
   (0x212a,0x212d), (0x212f,0x2139), (0x213c,0x213f), (0x2145,0x2149), (0x214e,0x214e),
   (0x2183,0x2184), (0x2c00,0x2ce4), (0x2ceb,0x2cee), (0x2cf2,0x2cf3), (0x2d00,0x2d25),
   (0x2d27,0x2d27), (0x2d2d,0x2d2d), (0x2d30,0x2d67), (0x2d6f,0x2d6f), (0x2d80,0x2d96),
   (0x2da0,0x2da6), (0x2da8,0x2dae), (0x2db0,0x2db6), (0x2db8,0x2dbe), (0x2dc0,0x2dc6),
   (0x2dc8,0x2dce), (0x2dd0,0x2dd6), (0x2dd8,0x2dde), (0x2e2f,0x2e2f), (0x3005,0x3006),
   (0x3031,0x3035), (0x303b,0x303c), (0x3041,0x3096), (0x309d,0x309f), (0x30a1,0x30fa),
   (0x30fc,0x30ff), (0x3105,0x312f), (0x3131,0x318e), (0x31a0,0x31bf), (0x31f0,0x31ff),
   (0x3400,0x4dbf), (0x4e00,0xa48c), (0xa4d0,0xa4fd), (0xa500,0xa60c), (0xa610,0xa62b),
   (0xa640,0xa66e), (0xa67f,0xa69d), (0xa6a0,0xa6e5), (0xa717,0xa71f), (0xa722,0xa788),
   (0xa78b,0xa7ca), (0xa7d0,0xa7d1), (0xa7d3,0xa7d3), (0xa7d5,0xa7d9), (0xa7f2,0xa801),
   (0xa803,0xa805), (0xa807,0xa80a), (0xa80c,0xa822), (0xa840,0xa873), (0xa882,0xa8b3),
   (0xa8d0,0xa8d9), (0xa8f2,0xa8f7), (0xa8fb,0xa8fb), (0xa8fd,0xa8fe), (0xa900,0xa925),
   (0xa930,0xa946), (0xa960,0xa97c), (0xa984,0xa9b2), (0xa9cf,0xa9d9), (0xa9e0,0xa9e4),
   (0xa9e6,0xa9fe), (0xaa00,0xaa28), (0xaa40,0xaa42), (0xaa44,0xaa4b), (0xaa50,0xaa59),
   (0xaa60,0xaa76), (0xaa7a,0xaa7a), (0xaa7e,0xaaaf), (0xaab1,0xaab1), (0xaab5,0xaab6),
   (0xaab9,0xaabd), (0xaac0,0xaac0), (0xaac2,0xaac2), (0xaadb,0xaadd), (0xaae0,0xaaea),
   (0xaaf2,0xaaf4), (0xab01,0xab06), (0xab09,0xab0e), (0xab11,0xab16), (0xab20,0xab26),
   (0xab28,0xab2e), (0xab30,0xab5a), (0xab5c,0xab69), (0xab70,0xabe2), (0xabf0,0xabf9),
   (0xac00,0xd7a3), (0xd7b0,0xd7c6), (0xd7cb,0xd7fb), (0xf900,0xfa6d), (0xfa70,0xfad9),
   (0xfb00,0xfb06), (0xfb13,0xfb17), (0xfb1d,0xfb1d), (0xfb1f,0xfb28), (0xfb2a,0xfb36),
   (0xfb38,0xfb3c), (0xfb3e,0xfb3e), (0xfb40,0xfb41), (0xfb43,0xfb44), (0xfb46,0xfbb1),
   (0xfbd3,0xfd3d), (0xfd50,0xfd8f), (0xfd92,0xfdc7), (0xfdf0,0xfdfb), (0xfe70,0xfe74),
   (0xfe76,0xfefc), (0xff10,0xff19), (0xff21,0xff3a), (0xff41,0xff5a), (0xff66,0xffbe),
   (0xffc2,0xffc7), (0xffca,0xffcf), (0xffd2,0xffd7), (0xffda,0xffdc)]

/-- The zeros of the decimal digits from U+0080 to U+FFFF; the other nine follow each. -/
def decimalZeros : List Nat :=
  [0x0660, 0x06f0, 0x07c0, 0x0966, 0x09e6, 0x0a66, 0x0ae6, 0x0b66, 0x0be6, 0x0c66, 0x0ce6, 0x0d66,
   0x0de6, 0x0e50, 0x0ed0, 0x0f20, 0x1040, 0x1090, 0x17e0, 0x1810, 0x1946, 0x19d0, 0x1a80, 0x1a90,
   0x1b50, 0x1bb0, 0x1c40, 0x1c50, 0xa620, 0xa8d0, 0xa900, 0xa9d0, 0xa9f0, 0xaa50, 0xabf0, 0xff10]

variable (c : Char)

/-- `Char.digitToIntOrNull()`. -/
def digitToIntOrNull : Option Nat :=
  if c.isDigit then some (c.toNat - '0'.toNat)
  else (decimalZeros.find? fun first => first ≤ c.toNat && c.toNat ≤ first + 9).map (c.toNat - ·)

/-- The lower-case image of one character. -/
def lowercaseChar : List Char :=
  if c.toNat < 0x80 then [c.toLower]
  -- LATIN CAPITAL LETTER I WITH DOT ABOVE keeps its dot as a combining character.
  else if c.toNat = 0x130 then ['i', Char.ofNat 0x307]
  else
    match lowercaseRuns.find? (·.covers c.toNat) with
    | some r => [Char.ofNat (c.toNat + r.delta).toNat]
    | none => [c]

/-- `Char.isLetterOrDigit()`. -/
def isLetterOrDigit : Bool :=
  if c.toNat < 0x80 then c.isAlphanum
  else letterRanges.any fun (first, last) => first ≤ c.toNat && c.toNat ≤ last

/-- The space separators and the ASCII separator controls, as closed ranges. -/
def whitespaceRanges : List (Nat × Nat) :=
  [(0x09, 0x0d), (0x1c, 0x20), (0xa0, 0xa0), (0x1680, 0x1680), (0x2000, 0x200a), (0x2028, 0x2029),
   (0x202f, 0x202f), (0x205f, 0x205f), (0x3000, 0x3000)]

/-- `Char.isWhitespace()`. -/
def isWhitespace : Bool :=
  whitespaceRanges.any fun (first, last) => first ≤ c.toNat && c.toNat ≤ last

/-! ## Lower-case text is lower-case

    One pass over the table checks that the images of a run are characters no run maps again. -/

/-- The images of a run, lowest and highest. -/
def CaseRun.imageFirst (r : CaseRun) : Nat := (r.first + r.delta).toNat

def CaseRun.imageLast (r : CaseRun) : Nat := (r.last + r.delta).toNat

/-- No image of `r` is mapped by `s`: the ranges are apart, or they interleave. -/
def CaseRun.apart (r s : CaseRun) : Bool :=
  r.imageLast.blt s.first || s.last.blt r.imageFirst ||
    ((r.step == 2 || r.first == r.last) && s.step == 2 && (r.imageFirst + s.first) % 2 == 1)

/-- The images of a run are characters, lower-case letters where they are ASCII, no white space, and
    mapped by no run. -/
def CaseRun.settled (r : CaseRun) : Bool :=
  0 ≤ r.first + r.delta && (r.step == 1 || r.step == 2) &&
  ((0x80 ≤ r.imageFirst && (r.imageLast < 0xd800 || 0xe000 ≤ r.imageFirst && r.imageLast <
    0x110000)) ||
    (97 ≤ r.imageFirst && r.imageLast ≤ 122)) &&
  (r.imageLast < 0x130 || 0x130 < r.imageFirst) &&
  (whitespaceRanges.all fun (first, last) => r.imageLast < first || last < r.imageFirst) &&
  lowercaseRuns.all r.apart

theorem lowercaseRuns_settled : lowercaseRuns.all CaseRun.settled = true := by
  decide +kernel

/-- What a run maps a character to is a character that no rule maps again, and no white space. -/
theorem CaseRun.image_spec {r : CaseRun} (hr : r ∈ lowercaseRuns) {n v : Nat}
    (hn : r.covers n = true) (hv : v = (n + r.delta).toNat) :
    v.isValidChar ∧ v ≠ 0x130 ∧ (v < 0x80 → 97 ≤ v ∧ v ≤ 122) ∧
      (∀ range ∈ whitespaceRanges, ¬(range.1 ≤ v ∧ v ≤ range.2)) ∧
      ∀ s ∈ lowercaseRuns, s.covers v = false := by
  have hok := all_eq_true.mp lowercaseRuns_settled r hr
  simp only [settled, Bool.and_eq_true, Bool.or_eq_true, decide_eq_true_eq, beq_iff_eq, all_eq_true]
    at hok
  obtain ⟨⟨⟨⟨⟨hpos, hstep⟩, hchar⟩, hdot⟩, hspace⟩, hruns⟩ := hok
  have himage : r.imageFirst ≤ v ∧ v ≤ r.imageLast ∧ v + r.first = r.imageFirst + n := by
    simp only [covers, Bool.and_eq_true, decide_eq_true_eq, beq_iff_eq] at hn
    unfold imageFirst imageLast
    omega
  simp only [covers, Bool.and_eq_true, decide_eq_true_eq, beq_iff_eq] at hn
  obtain ⟨⟨hfirst, hlast⟩, hmod⟩ := hn
  refine ⟨?_, by omega, by omega, ?_, ?_⟩
  · unfold Nat.isValidChar
    omega
  · rintro ⟨first, last⟩ hrange ⟨h1, h2⟩
    have := hspace (first, last) hrange
    simp only [] at this h1 h2
    omega
  · intro s hs
    have hapart := hruns s hs
    simp only [apart, Bool.or_eq_true, Bool.and_eq_true, beq_iff_eq, Nat.blt_eq] at hapart
    by_contra hcov
    simp only [covers, Bool.not_eq_false, Bool.and_eq_true, decide_eq_true_eq, beq_iff_eq] at hcov
    obtain ⟨⟨h1, h2⟩, h3⟩ := hcov
    rcases hapart with (hlt | hlt) | ⟨⟨halt, hs2⟩, hodd⟩
    · omega
    · omega
    · rw [hs2] at h3
      rcases hstep with hst | hst
      · rcases halt with h | h <;> omega
      · rw [hst] at hmod
        omega

/-- A lower-case image: it is its own image, and it is white space only if the original is. -/
def Lowered (c d : Char) : Prop :=
  lowercaseChar d = [d] ∧ (isWhitespace c = false → isWhitespace d = false)

theorem lowered_ascii :
    ∀ n < 0x80, lowercaseChar (Char.ofNat n).toLower = [(Char.ofNat n).toLower] ∧
      isWhitespace (Char.ofNat n).toLower = isWhitespace (Char.ofNat n) := by
  decide

theorem toLower_of_lower : ∀ n < 123, 97 ≤ n → (Char.ofNat n).toLower = Char.ofNat n := by
  decide

theorem lowered_image {r : CaseRun} (hr : r ∈ lowercaseRuns) {c : Char}
    (hc : r.covers c.toNat = true) : Lowered c (Char.ofNat (c.toNat + r.delta).toNat) := by
  obtain ⟨hvalid, hdot, hascii, hspace, hruns⟩ := CaseRun.image_spec hr hc rfl
  generalize (c.toNat + r.delta).toNat = v at hvalid hdot hascii hspace hruns
  have hv : (Char.ofNat v).toNat = v := by
    rw [Char.ofNat, dif_pos hvalid]
    rfl
  constructor
  · unfold lowercaseChar
    rw [hv]
    split_ifs with h
    · rw [toLower_of_lower v (by omega) (hascii h).1]
    · rw [find?_eq_none.mpr fun s hs => by simp [hruns s hs]]
  · intro _
    rw [isWhitespace, hv, any_eq_false]
    rintro range hrange
    simpa using hspace range hrange

theorem lowered_of_mem {c d : Char} (h : d ∈ lowercaseChar c) : Lowered c d := by
  unfold lowercaseChar at h
  split_ifs at h with hascii hdot
  · obtain rfl := mem_singleton.mp h
    have hspec := lowered_ascii c.toNat hascii
    rw [Char.ofNat_toNat] at hspec
    exact ⟨hspec.1, fun hc => hspec.2.trans hc⟩
  · have hi : lowercaseChar 'i' = ['i'] ∧ isWhitespace 'i' = false := by decide
    have hd : lowercaseChar (Char.ofNat 0x307) = [Char.ofNat 0x307] ∧
        isWhitespace (Char.ofNat 0x307) = false := by decide
    rcases mem_cons.mp h with rfl | h
    · exact ⟨hi.1, fun _ => hi.2⟩
    · obtain rfl := mem_singleton.mp h
      exact ⟨hd.1, fun _ => hd.2⟩
  · cases hfind : lowercaseRuns.find? (·.covers c.toNat) with
    | none =>
      simp only [hfind, mem_singleton] at h
      subst h
      exact ⟨by simp [lowercaseChar, hascii, hdot, hfind], id⟩
    | some r =>
      simp only [hfind, mem_singleton] at h
      subst h
      have hcovers : r.covers c.toNat = true := by simpa using find?_some hfind
      exact lowered_image (mem_of_find?_eq_some hfind) hcovers

theorem lowercaseChar_ne_nil : lowercaseChar c ≠ [] := by
  unfold lowercaseChar
  split_ifs
  · simp
  · simp
  · split <;> simp

end OlcVpn.Kotlin
