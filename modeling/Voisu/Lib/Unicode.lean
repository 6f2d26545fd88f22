import Mathlib
import Voisu.Lib.Chars

/-!
# Unicode character properties

The properties and the lowercase map of Unicode 17, the version of the standard library that the
source is built with.  A property is a list of arithmetic progressions `(first, last, step)` of code
points; like the library, every function answers ASCII without the tables.

* `isAlphabetic`, `isNumeric`, `isAlphanumeric`, `isUppercase`, `isLowercase`;
* `charToLowercase`   the lowercase of a character, one or two characters;
* `toLowercase`       the lowercase of a text, with the final form of a capital sigma.
-/

namespace Voisu.Lib

abbrev Progressions := List (Nat × Nat × Nat)

/-- one of the progressions holds the code point -/
def Progressions.has (table : Progressions) (n : Nat) : Bool :=
  table.any fun p => p.1 ≤ n && n ≤ p.2.1 && (n - p.1) % p.2.2 == 0

/-- `Alphabetic`, past ASCII -/
def alphabeticTable : Progressions :=
  [(0xaa, 0xaa, 1), (0xb5, 0xb5, 1), (0xba, 0xba, 1), (0xc0, 0xd6, 1), (0xd8, 0xf6, 1),
    (0xf8, 0x2c1, 1), (0x2c6, 0x2d1, 1), (0x2e0, 0x2e4, 1), (0x2ec, 0x2ee, 2), (0x345, 0x345, 1),
    (0x363, 0x374, 1), (0x376, 0x377, 1), (0x37a, 0x37d, 1), (0x37f, 0x37f, 1), (0x386, 0x386, 1),
    (0x388, 0x38a, 1), (0x38c, 0x38c, 1), (0x38e, 0x3a1, 1), (0x3a3, 0x3f5, 1), (0x3f7, 0x481, 1),
    (0x48a, 0x52f, 1), (0x531, 0x556, 1), (0x559, 0x559, 1), (0x560, 0x588, 1), (0x5b0, 0x5bd, 1),
    (0x5bf, 0x5bf, 1), (0x5c1, 0x5c2, 1), (0x5c4, 0x5c5, 1), (0x5c7, 0x5c7, 1), (0x5d0, 0x5ea, 1),
    (0x5ef, 0x5f2, 1), (0x610, 0x61a, 1), (0x620, 0x657, 1), (0x659, 0x65f, 1), (0x66e, 0x6d3, 1),
    (0x6d5, 0x6dc, 1), (0x6e1, 0x6e8, 1), (0x6ed, 0x6ef, 1), (0x6fa, 0x6fc, 1), (0x6ff, 0x6ff, 1),
    (0x710, 0x73f, 1), (0x74d, 0x7b1, 1), (0x7ca, 0x7ea, 1), (0x7f4, 0x7f5, 1), (0x7fa, 0x7fa, 1),
    (0x800, 0x817, 1), (0x81a, 0x82c, 1), (0x840, 0x858, 1), (0x860, 0x86a, 1), (0x870, 0x887, 1),
    (0x889, 0x88f, 1), (0x897, 0x897, 1), (0x8a0, 0x8c9, 1), (0x8d4, 0x8df, 1), (0x8e3, 0x8e9, 1),
    (0x8f0, 0x93b, 1), (0x93d, 0x94c, 1), (0x94e, 0x950, 1), (0x955, 0x963, 1), (0x971, 0x983, 1),
    (0x985, 0x98c, 1), (0x98f, 0x990, 1), (0x993, 0x9a8, 1), (0x9aa, 0x9b0, 1), (0x9b2, 0x9b2, 1),
    (0x9b6, 0x9b9, 1), (0x9bd, 0x9c4, 1), (0x9c7, 0x9c8, 1), (0x9cb, 0x9cc, 1), (0x9ce, 0x9ce, 1),
    (0x9d7, 0x9d7, 1), (0x9dc, 0x9dd, 1), (0x9df, 0x9e3, 1), (0x9f0, 0x9f1, 1), (0x9fc, 0x9fc, 1),
    (0xa01, 0xa03, 1), (0xa05, 0xa0a, 1), (0xa0f, 0xa10, 1), (0xa13, 0xa28, 1), (0xa2a, 0xa30, 1),
    (0xa32, 0xa33, 1), (0xa35, 0xa36, 1), (0xa38, 0xa39, 1), (0xa3e, 0xa42, 1), (0xa47, 0xa48, 1),
    (0xa4b, 0xa4c, 1), (0xa51, 0xa51, 1), (0xa59, 0xa5c, 1), (0xa5e, 0xa5e, 1), (0xa70, 0xa75, 1),
    (0xa81, 0xa83, 1), (0xa85, 0xa8d, 1), (0xa8f, 0xa91, 1), (0xa93, 0xaa8, 1), (0xaaa, 0xab0, 1),
    (0xab2, 0xab3, 1), (0xab5, 0xab9, 1), (0xabd, 0xac5, 1), (0xac7, 0xac9, 1), (0xacb, 0xacc, 1),
    (0xad0, 0xad0, 1), (0xae0, 0xae3, 1), (0xaf9, 0xafc, 1), (0xb01, 0xb03, 1), (0xb05, 0xb0c, 1),
    (0xb0f, 0xb10, 1), (0xb13, 0xb28, 1), (0xb2a, 0xb30, 1), (0xb32, 0xb33, 1), (0xb35, 0xb39, 1),
    (0xb3d, 0xb44, 1), (0xb47, 0xb48, 1), (0xb4b, 0xb4c, 1), (0xb56, 0xb57, 1), (0xb5c, 0xb5d, 1),
    (0xb5f, 0xb63, 1), (0xb71, 0xb71, 1), (0xb82, 0xb83, 1), (0xb85, 0xb8a, 1), (0xb8e, 0xb90, 1),
    (0xb92, 0xb95, 1), (0xb99, 0xb9a, 1), (0xb9c, 0xb9c, 1), (0xb9e, 0xb9f, 1), (0xba3, 0xba4, 1),
    (0xba8, 0xbaa, 1), (0xbae, 0xbb9, 1), (0xbbe, 0xbc2, 1), (0xbc6, 0xbc8, 1), (0xbca, 0xbcc, 1),
    (0xbd0, 0xbd0, 1), (0xbd7, 0xbd7, 1), (0xc00, 0xc0c, 1), (0xc0e, 0xc10, 1), (0xc12, 0xc28, 1),
    (0xc2a, 0xc39, 1), (0xc3d, 0xc44, 1), (0xc46, 0xc48, 1), (0xc4a, 0xc4c, 1), (0xc55, 0xc56, 1),
    (0xc58, 0xc5a, 1), (0xc5c, 0xc5d, 1), (0xc60, 0xc63, 1), (0xc80, 0xc83, 1), (0xc85, 0xc8c, 1),
    (0xc8e, 0xc90, 1), (0xc92, 0xca8, 1), (0xcaa, 0xcb3, 1), (0xcb5, 0xcb9, 1), (0xcbd, 0xcc4, 1),
    (0xcc6, 0xcc8, 1), (0xcca, 0xccc, 1), (0xcd5, 0xcd6, 1), (0xcdc, 0xcde, 1), (0xce0, 0xce3, 1),
    (0xcf1, 0xcf3, 1), (0xd00, 0xd0c, 1), (0xd0e, 0xd10, 1), (0xd12, 0xd3a, 1), (0xd3d, 0xd44, 1),
    (0xd46, 0xd48, 1), (0xd4a, 0xd4c, 1), (0xd4e, 0xd4e, 1), (0xd54, 0xd57, 1), (0xd5f, 0xd63, 1),
    (0xd7a, 0xd7f, 1), (0xd81, 0xd83, 1), (0xd85, 0xd96, 1), (0xd9a, 0xdb1, 1), (0xdb3, 0xdbb, 1),
    (0xdbd, 0xdbd, 1), (0xdc0, 0xdc6, 1), (0xdcf, 0xdd4, 1), (0xdd6, 0xdd6, 1), (0xdd8, 0xddf, 1),
    (0xdf2, 0xdf3, 1), (0xe01, 0xe3a, 1), (0xe40, 0xe46, 1), (0xe4d, 0xe4d, 1), (0xe81, 0xe82, 1),
    (0xe84, 0xe84, 1), (0xe86, 0xe8a, 1), (0xe8c, 0xea3, 1), (0xea5, 0xea5, 1), (0xea7, 0xeb9, 1),
    (0xebb, 0xebd, 1), (0xec0, 0xec4, 1), (0xec6, 0xec6, 1), (0xecd, 0xecd, 1), (0xedc, 0xedf, 1),
    (0xf00, 0xf00, 1), (0xf40, 0xf47, 1), (0xf49, 0xf6c, 1), (0xf71, 0xf83, 1), (0xf88, 0xf97, 1),
    (0xf99, 0xfbc, 1), (0x1000, 0x1036, 1), (0x1038, 0x1038, 1), (0x103b, 0x103f, 1),
    (0x1050, 0x108f, 1), (0x109a, 0x109d, 1), (0x10a0, 0x10c5, 1), (0x10c7, 0x10c7, 1),
    (0x10cd, 0x10cd, 1), (0x10d0, 0x10fa, 1), (0x10fc, 0x1248, 1), (0x124a, 0x124d, 1),
    (0x1250, 0x1256, 1), (0x1258, 0x1258, 1), (0x125a, 0x125d, 1), (0x1260, 0x1288, 1),
    (0x128a, 0x128d, 1), (0x1290, 0x12b0, 1), (0x12b2, 0x12b5, 1), (0x12b8, 0x12be, 1),
    (0x12c0, 0x12c0, 1), (0x12c2, 0x12c5, 1), (0x12c8, 0x12d6, 1), (0x12d8, 0x1310, 1),
    (0x1312, 0x1315, 1), (0x1318, 0x135a, 1), (0x1380, 0x138f, 1), (0x13a0, 0x13f5, 1),
    (0x13f8, 0x13fd, 1), (0x1401, 0x166c, 1), (0x166f, 0x167f, 1), (0x1681, 0x169a, 1),
    (0x16a0, 0x16ea, 1), (0x16ee, 0x16f8, 1), (0x1700, 0x1713, 1), (0x171f, 0x1733, 1),
    (0x1740, 0x1753, 1), (0x1760, 0x176c, 1), (0x176e, 0x1770, 1), (0x1772, 0x1773, 1),
    (0x1780, 0x17b3, 1), (0x17b6, 0x17c8, 1), (0x17d7, 0x17d7, 1), (0x17dc, 0x17dc, 1),
    (0x1820, 0x1878, 1), (0x1880, 0x18aa, 1), (0x18b0, 0x18f5, 1), (0x1900, 0x191e, 1),
    (0x1920, 0x192b, 1), (0x1930, 0x1938, 1), (0x1950, 0x196d, 1), (0x1970, 0x1974, 1),
    (0x1980, 0x19ab, 1), (0x19b0, 0x19c9, 1), (0x1a00, 0x1a1b, 1), (0x1a20, 0x1a5e, 1),
    (0x1a61, 0x1a74, 1), (0x1aa7, 0x1aa7, 1), (0x1abf, 0x1ac0, 1), (0x1acc, 0x1ace, 1),
    (0x1b00, 0x1b33, 1), (0x1b35, 0x1b43, 1), (0x1b45, 0x1b4c, 1), (0x1b80, 0x1ba9, 1),
    (0x1bac, 0x1baf, 1), (0x1bba, 0x1be5, 1), (0x1be7, 0x1bf1, 1), (0x1c00, 0x1c36, 1),
    (0x1c4d, 0x1c4f, 1), (0x1c5a, 0x1c7d, 1), (0x1c80, 0x1c8a, 1), (0x1c90, 0x1cba, 1),
    (0x1cbd, 0x1cbf, 1), (0x1ce9, 0x1cec, 1), (0x1cee, 0x1cf3, 1), (0x1cf5, 0x1cf6, 1),
    (0x1cfa, 0x1cfa, 1), (0x1d00, 0x1dbf, 1), (0x1dd3, 0x1df4, 1), (0x1e00, 0x1f15, 1),
    (0x1f18, 0x1f1d, 1), (0x1f20, 0x1f45, 1), (0x1f48, 0x1f4d, 1), (0x1f50, 0x1f57, 1),
    (0x1f59, 0x1f5d, 2), (0x1f5f, 0x1f7d, 1), (0x1f80, 0x1fb4, 1), (0x1fb6, 0x1fbc, 1),
    (0x1fbe, 0x1fbe, 1), (0x1fc2, 0x1fc4, 1), (0x1fc6, 0x1fcc, 1), (0x1fd0, 0x1fd3, 1),
    (0x1fd6, 0x1fdb, 1), (0x1fe0, 0x1fec, 1), (0x1ff2, 0x1ff4, 1), (0x1ff6, 0x1ffc, 1),
    (0x2071, 0x2071, 1), (0x207f, 0x207f, 1), (0x2090, 0x209c, 1), (0x2102, 0x2102, 1),
    (0x2107, 0x2107, 1), (0x210a, 0x2113, 1), (0x2115, 0x2115, 1), (0x2119, 0x211d, 1),
    (0x2124, 0x2128, 2), (0x212a, 0x212d, 1), (0x212f, 0x2139, 1), (0x213c, 0x213f, 1),
    (0x2145, 0x2149, 1), (0x214e, 0x214e, 1), (0x2160, 0x2188, 1), (0x24b6, 0x24e9, 1),
    (0x2c00, 0x2ce4, 1), (0x2ceb, 0x2cee, 1), (0x2cf2, 0x2cf3, 1), (0x2d00, 0x2d25, 1),
    (0x2d27, 0x2d27, 1), (0x2d2d, 0x2d2d, 1), (0x2d30, 0x2d67, 1), (0x2d6f, 0x2d6f, 1),
    (0x2d80, 0x2d96, 1), (0x2da0, 0x2da6, 1), (0x2da8, 0x2dae, 1), (0x2db0, 0x2db6, 1),
    (0x2db8, 0x2dbe, 1), (0x2dc0, 0x2dc6, 1), (0x2dc8, 0x2dce, 1), (0x2dd0, 0x2dd6, 1),
    (0x2dd8, 0x2dde, 1), (0x2de0, 0x2dff, 1), (0x2e2f, 0x2e2f, 1), (0x3005, 0x3007, 1),
    (0x3021, 0x3029, 1), (0x3031, 0x3035, 1), (0x3038, 0x303c, 1), (0x3041, 0x3096, 1),
    (0x309d, 0x309f, 1), (0x30a1, 0x30fa, 1), (0x30fc, 0x30ff, 1), (0x3105, 0x312f, 1),
    (0x3131, 0x318e, 1), (0x31a0, 0x31bf, 1), (0x31f0, 0x31ff, 1), (0x3400, 0x4dbf, 1),
    (0x4e00, 0xa48c, 1), (0xa4d0, 0xa4fd, 1), (0xa500, 0xa60c, 1), (0xa610, 0xa61f, 1),
    (0xa62a, 0xa62b, 1), (0xa640, 0xa66e, 1), (0xa674, 0xa67b, 1), (0xa67f, 0xa6ef, 1),
    (0xa717, 0xa71f, 1), (0xa722, 0xa788, 1), (0xa78b, 0xa7dc, 1), (0xa7f1, 0xa805, 1),
    (0xa807, 0xa827, 1), (0xa840, 0xa873, 1), (0xa880, 0xa8c3, 1), (0xa8c5, 0xa8c5, 1),
    (0xa8f2, 0xa8f7, 1), (0xa8fb, 0xa8fb, 1), (0xa8fd, 0xa8ff, 1), (0xa90a, 0xa92a, 1),
    (0xa930, 0xa952, 1), (0xa960, 0xa97c, 1), (0xa980, 0xa9b2, 1), (0xa9b4, 0xa9bf, 1),
    (0xa9cf, 0xa9cf, 1), (0xa9e0, 0xa9ef, 1), (0xa9fa, 0xa9fe, 1), (0xaa00, 0xaa36, 1),
    (0xaa40, 0xaa4d, 1), (0xaa60, 0xaa76, 1), (0xaa7a, 0xaabe, 1), (0xaac0, 0xaac2, 2),
    (0xaadb, 0xaadd, 1), (0xaae0, 0xaaef, 1), (0xaaf2, 0xaaf5, 1), (0xab01, 0xab06, 1),
    (0xab09, 0xab0e, 1), (0xab11, 0xab16, 1), (0xab20, 0xab26, 1), (0xab28, 0xab2e, 1),
    (0xab30, 0xab5a, 1), (0xab5c, 0xab69, 1), (0xab70, 0xabea, 1), (0xac00, 0xd7a3, 1),
    (0xd7b0, 0xd7c6, 1), (0xd7cb, 0xd7fb, 1), (0xf900, 0xfa6d, 1), (0xfa70, 0xfad9, 1),
    (0xfb00, 0xfb06, 1), (0xfb13, 0xfb17, 1), (0xfb1d, 0xfb28, 1), (0xfb2a, 0xfb36, 1),
    (0xfb38, 0xfb3c, 1), (0xfb3e, 0xfb3e, 1), (0xfb40, 0xfb41, 1), (0xfb43, 0xfb44, 1),
    (0xfb46, 0xfbb1, 1), (0xfbd3, 0xfd3d, 1), (0xfd50, 0xfd8f, 1), (0xfd92, 0xfdc7, 1),
    (0xfdf0, 0xfdfb, 1), (0xfe70, 0xfe74, 1), (0xfe76, 0xfefc, 1), (0xff21, 0xff3a, 1),
    (0xff41, 0xff5a, 1), (0xff66, 0xffbe, 1), (0xffc2, 0xffc7, 1), (0xffca, 0xffcf, 1),
    (0xffd2, 0xffd7, 1), (0xffda, 0xffdc, 1), (0x10000, 0x1000b, 1), (0x1000d, 0x10026, 1),
    (0x10028, 0x1003a, 1), (0x1003c, 0x1003d, 1), (0x1003f, 0x1004d, 1), (0x10050, 0x1005d, 1),
    (0x10080, 0x100fa, 1), (0x10140, 0x10174, 1), (0x10280, 0x1029c, 1), (0x102a0, 0x102d0, 1),
    (0x10300, 0x1031f, 1), (0x1032d, 0x1034a, 1), (0x10350, 0x1037a, 1), (0x10380, 0x1039d, 1),
    (0x103a0, 0x103c3, 1), (0x103c8, 0x103cf, 1), (0x103d1, 0x103d5, 1), (0x10400, 0x1049d, 1),
    (0x104b0, 0x104d3, 1), (0x104d8, 0x104fb, 1), (0x10500, 0x10527, 1), (0x10530, 0x10563, 1),
    (0x10570, 0x1057a, 1), (0x1057c, 0x1058a, 1), (0x1058c, 0x10592, 1), (0x10594, 0x10595, 1),
    (0x10597, 0x105a1, 1), (0x105a3, 0x105b1, 1), (0x105b3, 0x105b9, 1), (0x105bb, 0x105bc, 1),
    (0x105c0, 0x105f3, 1), (0x10600, 0x10736, 1), (0x10740, 0x10755, 1), (0x10760, 0x10767, 1),
    (0x10780, 0x10785, 1), (0x10787, 0x107b0, 1), (0x107b2, 0x107ba, 1), (0x10800, 0x10805, 1),
    (0x10808, 0x10808, 1), (0x1080a, 0x10835, 1), (0x10837, 0x10838, 1), (0x1083c, 0x1083c, 1),
    (0x1083f, 0x10855, 1), (0x10860, 0x10876, 1), (0x10880, 0x1089e, 1), (0x108e0, 0x108f2, 1),
    (0x108f4, 0x108f5, 1), (0x10900, 0x10915, 1), (0x10920, 0x10939, 1), (0x10940, 0x10959, 1),
    (0x10980, 0x109b7, 1), (0x109be, 0x109bf, 1), (0x10a00, 0x10a03, 1), (0x10a05, 0x10a06, 1),
    (0x10a0c, 0x10a13, 1), (0x10a15, 0x10a17, 1), (0x10a19, 0x10a35, 1), (0x10a60, 0x10a7c, 1),
    (0x10a80, 0x10a9c, 1), (0x10ac0, 0x10ac7, 1), (0x10ac9, 0x10ae4, 1), (0x10b00, 0x10b35, 1),
    (0x10b40, 0x10b55, 1), (0x10b60, 0x10b72, 1), (0x10b80, 0x10b91, 1), (0x10c00, 0x10c48, 1),
    (0x10c80, 0x10cb2, 1), (0x10cc0, 0x10cf2, 1), (0x10d00, 0x10d27, 1), (0x10d4a, 0x10d65, 1),
    (0x10d69, 0x10d69, 1), (0x10d6f, 0x10d85, 1), (0x10e80, 0x10ea9, 1), (0x10eab, 0x10eac, 1),
    (0x10eb0, 0x10eb1, 1), (0x10ec2, 0x10ec7, 1), (0x10efa, 0x10efc, 1), (0x10f00, 0x10f1c, 1),
    (0x10f27, 0x10f27, 1), (0x10f30, 0x10f45, 1), (0x10f70, 0x10f81, 1), (0x10fb0, 0x10fc4, 1),
    (0x10fe0, 0x10ff6, 1), (0x11000, 0x11045, 1), (0x11071, 0x11075, 1), (0x11080, 0x110b8, 1),
    (0x110c2, 0x110c2, 1), (0x110d0, 0x110e8, 1), (0x11100, 0x11132, 1), (0x11144, 0x11147, 1),
    (0x11150, 0x11172, 1), (0x11176, 0x11176, 1), (0x11180, 0x111bf, 1), (0x111c1, 0x111c4, 1),
    (0x111ce, 0x111cf, 1), (0x111da, 0x111dc, 2), (0x11200, 0x11211, 1), (0x11213, 0x11234, 1),
    (0x11237, 0x11237, 1), (0x1123e, 0x11241, 1), (0x11280, 0x11286, 1), (0x11288, 0x11288, 1),
    (0x1128a, 0x1128d, 1), (0x1128f, 0x1129d, 1), (0x1129f, 0x112a8, 1), (0x112b0, 0x112e8, 1),
    (0x11300, 0x11303, 1), (0x11305, 0x1130c, 1), (0x1130f, 0x11310, 1), (0x11313, 0x11328, 1),
    (0x1132a, 0x11330, 1), (0x11332, 0x11333, 1), (0x11335, 0x11339, 1), (0x1133d, 0x11344, 1),
    (0x11347, 0x11348, 1), (0x1134b, 0x1134c, 1), (0x11350, 0x11350, 1), (0x11357, 0x11357, 1),
    (0x1135d, 0x11363, 1), (0x11380, 0x11389, 1), (0x1138b, 0x1138b, 1), (0x1138e, 0x1138e, 1),
    (0x11390, 0x113b5, 1), (0x113b7, 0x113c0, 1), (0x113c2, 0x113c2, 1), (0x113c5, 0x113c5, 1),
    (0x113c7, 0x113ca, 1), (0x113cc, 0x113cd, 1), (0x113d1, 0x113d3, 2), (0x11400, 0x11441, 1),
    (0x11443, 0x11445, 1), (0x11447, 0x1144a, 1), (0x1145f, 0x11461, 1), (0x11480, 0x114c1, 1),
    (0x114c4, 0x114c5, 1), (0x114c7, 0x114c7, 1), (0x11580, 0x115b5, 1), (0x115b8, 0x115be, 1),
    (0x115d8, 0x115dd, 1), (0x11600, 0x1163e, 1), (0x11640, 0x11640, 1), (0x11644, 0x11644, 1),
    (0x11680, 0x116b5, 1), (0x116b8, 0x116b8, 1), (0x11700, 0x1171a, 1), (0x1171d, 0x1172a, 1),
    (0x11740, 0x11746, 1), (0x11800, 0x11838, 1), (0x118a0, 0x118df, 1), (0x118ff, 0x11906, 1),
    (0x11909, 0x11909, 1), (0x1190c, 0x11913, 1), (0x11915, 0x11916, 1), (0x11918, 0x11935, 1),
    (0x11937, 0x11938, 1), (0x1193b, 0x1193c, 1), (0x1193f, 0x11942, 1), (0x119a0, 0x119a7, 1),
    (0x119aa, 0x119d7, 1), (0x119da, 0x119df, 1), (0x119e1, 0x119e1, 1), (0x119e3, 0x119e4, 1),
    (0x11a00, 0x11a32, 1), (0x11a35, 0x11a3e, 1), (0x11a50, 0x11a97, 1), (0x11a9d, 0x11a9d, 1),
    (0x11ab0, 0x11af8, 1), (0x11b60, 0x11b67, 1), (0x11bc0, 0x11be0, 1), (0x11c00, 0x11c08, 1),
    (0x11c0a, 0x11c36, 1), (0x11c38, 0x11c3e, 1), (0x11c40, 0x11c40, 1), (0x11c72, 0x11c8f, 1),
    (0x11c92, 0x11ca7, 1), (0x11ca9, 0x11cb6, 1), (0x11d00, 0x11d06, 1), (0x11d08, 0x11d09, 1),
    (0x11d0b, 0x11d36, 1), (0x11d3a, 0x11d3a, 1), (0x11d3c, 0x11d3d, 1), (0x11d3f, 0x11d41, 1),
    (0x11d43, 0x11d43, 1), (0x11d46, 0x11d47, 1), (0x11d60, 0x11d65, 1), (0x11d67, 0x11d68, 1),
    (0x11d6a, 0x11d8e, 1), (0x11d90, 0x11d91, 1), (0x11d93, 0x11d96, 1), (0x11d98, 0x11d98, 1),
    (0x11db0, 0x11ddb, 1), (0x11ee0, 0x11ef6, 1), (0x11f00, 0x11f10, 1), (0x11f12, 0x11f3a, 1),
    (0x11f3e, 0x11f40, 1), (0x11fb0, 0x11fb0, 1), (0x12000, 0x12399, 1), (0x12400, 0x1246e, 1),
    (0x12480, 0x12543, 1), (0x12f90, 0x12ff0, 1), (0x13000, 0x1342f, 1), (0x13441, 0x13446, 1),
    (0x13460, 0x143fa, 1), (0x14400, 0x14646, 1), (0x16100, 0x1612e, 1), (0x16800, 0x16a38, 1),
    (0x16a40, 0x16a5e, 1), (0x16a70, 0x16abe, 1), (0x16ad0, 0x16aed, 1), (0x16b00, 0x16b2f, 1),
    (0x16b40, 0x16b43, 1), (0x16b63, 0x16b77, 1), (0x16b7d, 0x16b8f, 1), (0x16d40, 0x16d6c, 1),
    (0x16e40, 0x16e7f, 1), (0x16ea0, 0x16eb8, 1), (0x16ebb, 0x16ed3, 1), (0x16f00, 0x16f4a, 1),
    (0x16f4f, 0x16f87, 1), (0x16f8f, 0x16f9f, 1), (0x16fe0, 0x16fe1, 1), (0x16fe3, 0x16fe3, 1),
    (0x16ff0, 0x16ff6, 1), (0x17000, 0x18cd5, 1), (0x18cff, 0x18d1e, 1), (0x18d80, 0x18df2, 1),
    (0x1aff0, 0x1aff3, 1), (0x1aff5, 0x1affb, 1), (0x1affd, 0x1affe, 1), (0x1b000, 0x1b122, 1),
    (0x1b132, 0x1b132, 1), (0x1b150, 0x1b152, 1), (0x1b155, 0x1b155, 1), (0x1b164, 0x1b167, 1),
    (0x1b170, 0x1b2fb, 1), (0x1bc00, 0x1bc6a, 1), (0x1bc70, 0x1bc7c, 1), (0x1bc80, 0x1bc88, 1),
    (0x1bc90, 0x1bc99, 1), (0x1bc9e, 0x1bc9e, 1), (0x1d400, 0x1d454, 1), (0x1d456, 0x1d49c, 1),
    (0x1d49e, 0x1d49f, 1), (0x1d4a2, 0x1d4a2, 1), (0x1d4a5, 0x1d4a6, 1), (0x1d4a9, 0x1d4ac, 1),
    (0x1d4ae, 0x1d4b9, 1), (0x1d4bb, 0x1d4bb, 1), (0x1d4bd, 0x1d4c3, 1), (0x1d4c5, 0x1d505, 1),
    (0x1d507, 0x1d50a, 1), (0x1d50d, 0x1d514, 1), (0x1d516, 0x1d51c, 1), (0x1d51e, 0x1d539, 1),
    (0x1d53b, 0x1d53e, 1), (0x1d540, 0x1d544, 1), (0x1d546, 0x1d546, 1), (0x1d54a, 0x1d550, 1),
    (0x1d552, 0x1d6a5, 1), (0x1d6a8, 0x1d6c0, 1), (0x1d6c2, 0x1d6da, 1), (0x1d6dc, 0x1d6fa, 1),
    (0x1d6fc, 0x1d714, 1), (0x1d716, 0x1d734, 1), (0x1d736, 0x1d74e, 1), (0x1d750, 0x1d76e, 1),
    (0x1d770, 0x1d788, 1), (0x1d78a, 0x1d7a8, 1), (0x1d7aa, 0x1d7c2, 1), (0x1d7c4, 0x1d7cb, 1),
    (0x1df00, 0x1df1e, 1), (0x1df25, 0x1df2a, 1), (0x1e000, 0x1e006, 1), (0x1e008, 0x1e018, 1),
    (0x1e01b, 0x1e021, 1), (0x1e023, 0x1e024, 1), (0x1e026, 0x1e02a, 1), (0x1e030, 0x1e06d, 1),
    (0x1e08f, 0x1e08f, 1), (0x1e100, 0x1e12c, 1), (0x1e137, 0x1e13d, 1), (0x1e14e, 0x1e14e, 1),
    (0x1e290, 0x1e2ad, 1), (0x1e2c0, 0x1e2eb, 1), (0x1e4d0, 0x1e4eb, 1), (0x1e5d0, 0x1e5ed, 1),
    (0x1e5f0, 0x1e5f0, 1), (0x1e6c0, 0x1e6de, 1), (0x1e6e0, 0x1e6f5, 1), (0x1e6fe, 0x1e6ff, 1),
    (0x1e7e0, 0x1e7e6, 1), (0x1e7e8, 0x1e7eb, 1), (0x1e7ed, 0x1e7ee, 1), (0x1e7f0, 0x1e7fe, 1),
    (0x1e800, 0x1e8c4, 1), (0x1e900, 0x1e943, 1), (0x1e947, 0x1e947, 1), (0x1e94b, 0x1e94b, 1),
    (0x1ee00, 0x1ee03, 1), (0x1ee05, 0x1ee1f, 1), (0x1ee21, 0x1ee22, 1), (0x1ee24, 0x1ee24, 1),
    (0x1ee27, 0x1ee27, 1), (0x1ee29, 0x1ee32, 1), (0x1ee34, 0x1ee37, 1), (0x1ee39, 0x1ee3b, 2),
    (0x1ee42, 0x1ee42, 1), (0x1ee47, 0x1ee4b, 2), (0x1ee4d, 0x1ee4f, 1), (0x1ee51, 0x1ee52, 1),
    (0x1ee54, 0x1ee54, 1), (0x1ee57, 0x1ee5f, 2), (0x1ee61, 0x1ee62, 1), (0x1ee64, 0x1ee64, 1),
    (0x1ee67, 0x1ee6a, 1), (0x1ee6c, 0x1ee72, 1), (0x1ee74, 0x1ee77, 1), (0x1ee79, 0x1ee7c, 1),
    (0x1ee7e, 0x1ee7e, 1), (0x1ee80, 0x1ee89, 1), (0x1ee8b, 0x1ee9b, 1), (0x1eea1, 0x1eea3, 1),
    (0x1eea5, 0x1eea9, 1), (0x1eeab, 0x1eebb, 1), (0x1f130, 0x1f149, 1), (0x1f150, 0x1f169, 1),
    (0x1f170, 0x1f189, 1), (0x20000, 0x2a6df, 1), (0x2a700, 0x2b81d, 1), (0x2b820, 0x2cead, 1),
    (0x2ceb0, 0x2ebe0, 1), (0x2ebf0, 0x2ee5d, 1), (0x2f800, 0x2fa1d, 1), (0x30000, 0x3134a, 1),
    (0x31350, 0x33479, 1)]

/-- the categories `Nd`, `Nl` and `No`, past ASCII -/
def numericTable : Progressions :=
  [(0xb2, 0xb3, 1), (0xb9, 0xb9, 1), (0xbc, 0xbe, 1), (0x660, 0x669, 1), (0x6f0, 0x6f9, 1),
    (0x7c0, 0x7c9, 1), (0x966, 0x96f, 1), (0x9e6, 0x9ef, 1), (0x9f4, 0x9f9, 1), (0xa66, 0xa6f, 1),
    (0xae6, 0xaef, 1), (0xb66, 0xb6f, 1), (0xb72, 0xb77, 1), (0xbe6, 0xbf2, 1), (0xc66, 0xc6f, 1),
    (0xc78, 0xc7e, 1), (0xce6, 0xcef, 1), (0xd58, 0xd5e, 1), (0xd66, 0xd78, 1), (0xde6, 0xdef, 1),
    (0xe50, 0xe59, 1), (0xed0, 0xed9, 1), (0xf20, 0xf33, 1), (0x1040, 0x1049, 1),
    (0x1090, 0x1099, 1), (0x1369, 0x137c, 1), (0x16ee, 0x16f0, 1), (0x17e0, 0x17e9, 1),
    (0x17f0, 0x17f9, 1), (0x1810, 0x1819, 1), (0x1946, 0x194f, 1), (0x19d0, 0x19da, 1),
    (0x1a80, 0x1a89, 1), (0x1a90, 0x1a99, 1), (0x1b50, 0x1b59, 1), (0x1bb0, 0x1bb9, 1),
    (0x1c40, 0x1c49, 1), (0x1c50, 0x1c59, 1), (0x2070, 0x2070, 1), (0x2074, 0x2079, 1),
    (0x2080, 0x2089, 1), (0x2150, 0x2182, 1), (0x2185, 0x2189, 1), (0x2460, 0x249b, 1),
    (0x24ea, 0x24ff, 1), (0x2776, 0x2793, 1), (0x2cfd, 0x2cfd, 1), (0x3007, 0x3007, 1),
    (0x3021, 0x3029, 1), (0x3038, 0x303a, 1), (0x3192, 0x3195, 1), (0x3220, 0x3229, 1),
    (0x3248, 0x324f, 1), (0x3251, 0x325f, 1), (0x3280, 0x3289, 1), (0x32b1, 0x32bf, 1),
    (0xa620, 0xa629, 1), (0xa6e6, 0xa6ef, 1), (0xa830, 0xa835, 1), (0xa8d0, 0xa8d9, 1),
    (0xa900, 0xa909, 1), (0xa9d0, 0xa9d9, 1), (0xa9f0, 0xa9f9, 1), (0xaa50, 0xaa59, 1),
    (0xabf0, 0xabf9, 1), (0xff10, 0xff19, 1), (0x10107, 0x10133, 1), (0x10140, 0x10178, 1),
    (0x1018a, 0x1018b, 1), (0x102e1, 0x102fb, 1), (0x10320, 0x10323, 1), (0x10341, 0x10341, 1),
    (0x1034a, 0x1034a, 1), (0x103d1, 0x103d5, 1), (0x104a0, 0x104a9, 1), (0x10858, 0x1085f, 1),
    (0x10879, 0x1087f, 1), (0x108a7, 0x108af, 1), (0x108fb, 0x108ff, 1), (0x10916, 0x1091b, 1),
    (0x109bc, 0x109bd, 1), (0x109c0, 0x109cf, 1), (0x109d2, 0x109ff, 1), (0x10a40, 0x10a48, 1),
    (0x10a7d, 0x10a7e, 1), (0x10a9d, 0x10a9f, 1), (0x10aeb, 0x10aef, 1), (0x10b58, 0x10b5f, 1),
    (0x10b78, 0x10b7f, 1), (0x10ba9, 0x10baf, 1), (0x10cfa, 0x10cff, 1), (0x10d30, 0x10d39, 1),
    (0x10d40, 0x10d49, 1), (0x10e60, 0x10e7e, 1), (0x10f1d, 0x10f26, 1), (0x10f51, 0x10f54, 1),
    (0x10fc5, 0x10fcb, 1), (0x11052, 0x1106f, 1), (0x110f0, 0x110f9, 1), (0x11136, 0x1113f, 1),
    (0x111d0, 0x111d9, 1), (0x111e1, 0x111f4, 1), (0x112f0, 0x112f9, 1), (0x11450, 0x11459, 1),
    (0x114d0, 0x114d9, 1), (0x11650, 0x11659, 1), (0x116c0, 0x116c9, 1), (0x116d0, 0x116e3, 1),
    (0x11730, 0x1173b, 1), (0x118e0, 0x118f2, 1), (0x11950, 0x11959, 1), (0x11bf0, 0x11bf9, 1),
    (0x11c50, 0x11c6c, 1), (0x11d50, 0x11d59, 1), (0x11da0, 0x11da9, 1), (0x11de0, 0x11de9, 1),
    (0x11f50, 0x11f59, 1), (0x11fc0, 0x11fd4, 1), (0x12400, 0x1246e, 1), (0x16130, 0x16139, 1),
    (0x16a60, 0x16a69, 1), (0x16ac0, 0x16ac9, 1), (0x16b50, 0x16b59, 1), (0x16b5b, 0x16b61, 1),
    (0x16d70, 0x16d79, 1), (0x16e80, 0x16e96, 1), (0x16ff4, 0x16ff6, 1), (0x1ccf0, 0x1ccf9, 1),
    (0x1d2c0, 0x1d2d3, 1), (0x1d2e0, 0x1d2f3, 1), (0x1d360, 0x1d378, 1), (0x1d7ce, 0x1d7ff, 1),
    (0x1e140, 0x1e149, 1), (0x1e2f0, 0x1e2f9, 1), (0x1e4f0, 0x1e4f9, 1), (0x1e5f1, 0x1e5fa, 1),
    (0x1e8c7, 0x1e8cf, 1), (0x1e950, 0x1e959, 1), (0x1ec71, 0x1ecab, 1), (0x1ecad, 0x1ecaf, 1),
    (0x1ecb1, 0x1ecb4, 1), (0x1ed01, 0x1ed2d, 1), (0x1ed2f, 0x1ed3d, 1), (0x1f100, 0x1f10c, 1),
    (0x1fbf0, 0x1fbf9, 1)]

/-- `Uppercase`, past ASCII -/
def uppercaseTable : Progressions :=
  [(0xc0, 0xd6, 1), (0xd8, 0xde, 1), (0x100, 0x136, 2), (0x139, 0x147, 2), (0x14a, 0x176, 2),
    (0x178, 0x179, 1), (0x17b, 0x17d, 2), (0x181, 0x182, 1), (0x184, 0x184, 1), (0x186, 0x187, 1),
    (0x189, 0x18b, 1), (0x18e, 0x191, 1), (0x193, 0x194, 1), (0x196, 0x198, 1), (0x19c, 0x19d, 1),
    (0x19f, 0x1a0, 1), (0x1a2, 0x1a4, 2), (0x1a6, 0x1a7, 1), (0x1a9, 0x1a9, 1), (0x1ac, 0x1ac, 1),
    (0x1ae, 0x1af, 1), (0x1b1, 0x1b3, 1), (0x1b5, 0x1b5, 1), (0x1b7, 0x1b8, 1), (0x1bc, 0x1bc, 1),
    (0x1c4, 0x1c4, 1), (0x1c7, 0x1c7, 1), (0x1ca, 0x1ca, 1), (0x1cd, 0x1db, 2), (0x1de, 0x1ee, 2),
    (0x1f1, 0x1f1, 1), (0x1f4, 0x1f4, 1), (0x1f6, 0x1f8, 1), (0x1fa, 0x232, 2), (0x23a, 0x23b, 1),
    (0x23d, 0x23e, 1), (0x241, 0x241, 1), (0x243, 0x246, 1), (0x248, 0x24e, 2), (0x370, 0x372, 2),
    (0x376, 0x376, 1), (0x37f, 0x37f, 1), (0x386, 0x386, 1), (0x388, 0x38a, 1), (0x38c, 0x38c, 1),
    (0x38e, 0x38f, 1), (0x391, 0x3a1, 1), (0x3a3, 0x3ab, 1), (0x3cf, 0x3cf, 1), (0x3d2, 0x3d4, 1),
    (0x3d8, 0x3ee, 2), (0x3f4, 0x3f4, 1), (0x3f7, 0x3f7, 1), (0x3f9, 0x3fa, 1), (0x3fd, 0x42f, 1),
    (0x460, 0x480, 2), (0x48a, 0x4be, 2), (0x4c0, 0x4c1, 1), (0x4c3, 0x4cd, 2), (0x4d0, 0x52e, 2),
    (0x531, 0x556, 1), (0x10a0, 0x10c5, 1), (0x10c7, 0x10c7, 1), (0x10cd, 0x10cd, 1),
    (0x13a0, 0x13f5, 1), (0x1c89, 0x1c89, 1), (0x1c90, 0x1cba, 1), (0x1cbd, 0x1cbf, 1),
    (0x1e00, 0x1e94, 2), (0x1e9e, 0x1efe, 2), (0x1f08, 0x1f0f, 1), (0x1f18, 0x1f1d, 1),
    (0x1f28, 0x1f2f, 1), (0x1f38, 0x1f3f, 1), (0x1f48, 0x1f4d, 1), (0x1f59, 0x1f5f, 2),
    (0x1f68, 0x1f6f, 1), (0x1fb8, 0x1fbb, 1), (0x1fc8, 0x1fcb, 1), (0x1fd8, 0x1fdb, 1),
    (0x1fe8, 0x1fec, 1), (0x1ff8, 0x1ffb, 1), (0x2102, 0x2102, 1), (0x2107, 0x2107, 1),
    (0x210b, 0x210d, 1), (0x2110, 0x2112, 1), (0x2115, 0x2115, 1), (0x2119, 0x211d, 1),
    (0x2124, 0x2128, 2), (0x212a, 0x212d, 1), (0x2130, 0x2133, 1), (0x213e, 0x213f, 1),
    (0x2145, 0x2145, 1), (0x2160, 0x216f, 1), (0x2183, 0x2183, 1), (0x24b6, 0x24cf, 1),
    (0x2c00, 0x2c2f, 1), (0x2c60, 0x2c60, 1), (0x2c62, 0x2c64, 1), (0x2c67, 0x2c6b, 2),
    (0x2c6d, 0x2c70, 1), (0x2c72, 0x2c72, 1), (0x2c75, 0x2c75, 1), (0x2c7e, 0x2c80, 1),
    (0x2c82, 0x2ce2, 2), (0x2ceb, 0x2ced, 2), (0x2cf2, 0x2cf2, 1), (0xa640, 0xa66c, 2),
    (0xa680, 0xa69a, 2), (0xa722, 0xa72e, 2), (0xa732, 0xa76e, 2), (0xa779, 0xa77b, 2),
    (0xa77d, 0xa77e, 1), (0xa780, 0xa786, 2), (0xa78b, 0xa78d, 2), (0xa790, 0xa792, 2),
    (0xa796, 0xa7a8, 2), (0xa7aa, 0xa7ae, 1), (0xa7b0, 0xa7b4, 1), (0xa7b6, 0xa7c2, 2),
    (0xa7c4, 0xa7c7, 1), (0xa7c9, 0xa7c9, 1), (0xa7cb, 0xa7cc, 1), (0xa7ce, 0xa7dc, 2),
    (0xa7f5, 0xa7f5, 1), (0xff21, 0xff3a, 1), (0x10400, 0x10427, 1), (0x104b0, 0x104d3, 1),
    (0x10570, 0x1057a, 1), (0x1057c, 0x1058a, 1), (0x1058c, 0x10592, 1), (0x10594, 0x10595, 1),
    (0x10c80, 0x10cb2, 1), (0x10d50, 0x10d65, 1), (0x118a0, 0x118bf, 1), (0x16e40, 0x16e5f, 1),
    (0x16ea0, 0x16eb8, 1), (0x1d400, 0x1d419, 1), (0x1d434, 0x1d44d, 1), (0x1d468, 0x1d481, 1),
    (0x1d49c, 0x1d49c, 1), (0x1d49e, 0x1d49f, 1), (0x1d4a2, 0x1d4a2, 1), (0x1d4a5, 0x1d4a6, 1),
    (0x1d4a9, 0x1d4ac, 1), (0x1d4ae, 0x1d4b5, 1), (0x1d4d0, 0x1d4e9, 1), (0x1d504, 0x1d505, 1),
    (0x1d507, 0x1d50a, 1), (0x1d50d, 0x1d514, 1), (0x1d516, 0x1d51c, 1), (0x1d538, 0x1d539, 1),
    (0x1d53b, 0x1d53e, 1), (0x1d540, 0x1d544, 1), (0x1d546, 0x1d546, 1), (0x1d54a, 0x1d550, 1),
    (0x1d56c, 0x1d585, 1), (0x1d5a0, 0x1d5b9, 1), (0x1d5d4, 0x1d5ed, 1), (0x1d608, 0x1d621, 1),
    (0x1d63c, 0x1d655, 1), (0x1d670, 0x1d689, 1), (0x1d6a8, 0x1d6c0, 1), (0x1d6e2, 0x1d6fa, 1),
    (0x1d71c, 0x1d734, 1), (0x1d756, 0x1d76e, 1), (0x1d790, 0x1d7a8, 1), (0x1d7ca, 0x1d7ca, 1),
    (0x1e900, 0x1e921, 1), (0x1f130, 0x1f149, 1), (0x1f150, 0x1f169, 1), (0x1f170, 0x1f189, 1)]

/-- `Lowercase`, past ASCII -/
def lowercaseTable : Progressions :=
  [(0xaa, 0xaa, 1), (0xb5, 0xb5, 1), (0xba, 0xba, 1), (0xdf, 0xf6, 1), (0xf8, 0xff, 1),
    (0x101, 0x135, 2), (0x137, 0x138, 1), (0x13a, 0x146, 2), (0x148, 0x149, 1), (0x14b, 0x177, 2),
    (0x17a, 0x17c, 2), (0x17e, 0x180, 1), (0x183, 0x185, 2), (0x188, 0x188, 1), (0x18c, 0x18d, 1),
    (0x192, 0x192, 1), (0x195, 0x195, 1), (0x199, 0x19b, 1), (0x19e, 0x19e, 1), (0x1a1, 0x1a5, 2),
    (0x1a8, 0x1a8, 1), (0x1aa, 0x1ab, 1), (0x1ad, 0x1ad, 1), (0x1b0, 0x1b0, 1), (0x1b4, 0x1b6, 2),
    (0x1b9, 0x1ba, 1), (0x1bd, 0x1bf, 1), (0x1c6, 0x1c6, 1), (0x1c9, 0x1c9, 1), (0x1cc, 0x1da, 2),
    (0x1dc, 0x1dd, 1), (0x1df, 0x1ed, 2), (0x1ef, 0x1f0, 1), (0x1f3, 0x1f5, 2), (0x1f9, 0x231, 2),
    (0x233, 0x239, 1), (0x23c, 0x23c, 1), (0x23f, 0x240, 1), (0x242, 0x242, 1), (0x247, 0x24d, 2),
    (0x24f, 0x293, 1), (0x296, 0x2b8, 1), (0x2c0, 0x2c1, 1), (0x2e0, 0x2e4, 1), (0x345, 0x345, 1),
    (0x371, 0x373, 2), (0x377, 0x377, 1), (0x37a, 0x37d, 1), (0x390, 0x390, 1), (0x3ac, 0x3ce, 1),
    (0x3d0, 0x3d1, 1), (0x3d5, 0x3d7, 1), (0x3d9, 0x3ed, 2), (0x3ef, 0x3f3, 1), (0x3f5, 0x3f5, 1),
    (0x3f8, 0x3f8, 1), (0x3fb, 0x3fc, 1), (0x430, 0x45f, 1), (0x461, 0x481, 2), (0x48b, 0x4bf, 2),
    (0x4c2, 0x4cc, 2), (0x4ce, 0x4cf, 1), (0x4d1, 0x52f, 2), (0x560, 0x588, 1),
    (0x10d0, 0x10fa, 1), (0x10fc, 0x10ff, 1), (0x13f8, 0x13fd, 1), (0x1c80, 0x1c88, 1),
    (0x1c8a, 0x1c8a, 1), (0x1d00, 0x1dbf, 1), (0x1e01, 0x1e93, 2), (0x1e95, 0x1e9d, 1),
    (0x1e9f, 0x1efd, 2), (0x1eff, 0x1f07, 1), (0x1f10, 0x1f15, 1), (0x1f20, 0x1f27, 1),
    (0x1f30, 0x1f37, 1), (0x1f40, 0x1f45, 1), (0x1f50, 0x1f57, 1), (0x1f60, 0x1f67, 1),
    (0x1f70, 0x1f7d, 1), (0x1f80, 0x1f87, 1), (0x1f90, 0x1f97, 1), (0x1fa0, 0x1fa7, 1),
    (0x1fb0, 0x1fb4, 1), (0x1fb6, 0x1fb7, 1), (0x1fbe, 0x1fbe, 1), (0x1fc2, 0x1fc4, 1),
    (0x1fc6, 0x1fc7, 1), (0x1fd0, 0x1fd3, 1), (0x1fd6, 0x1fd7, 1), (0x1fe0, 0x1fe7, 1),
    (0x1ff2, 0x1ff4, 1), (0x1ff6, 0x1ff7, 1), (0x2071, 0x2071, 1), (0x207f, 0x207f, 1),
    (0x2090, 0x209c, 1), (0x210a, 0x210a, 1), (0x210e, 0x210f, 1), (0x2113, 0x2113, 1),
    (0x212f, 0x212f, 1), (0x2134, 0x2134, 1), (0x2139, 0x2139, 1), (0x213c, 0x213d, 1),
    (0x2146, 0x2149, 1), (0x214e, 0x214e, 1), (0x2170, 0x217f, 1), (0x2184, 0x2184, 1),
    (0x24d0, 0x24e9, 1), (0x2c30, 0x2c5f, 1), (0x2c61, 0x2c61, 1), (0x2c65, 0x2c66, 1),
    (0x2c68, 0x2c6c, 2), (0x2c71, 0x2c71, 1), (0x2c73, 0x2c74, 1), (0x2c76, 0x2c7d, 1),
    (0x2c81, 0x2ce1, 2), (0x2ce3, 0x2ce4, 1), (0x2cec, 0x2cee, 2), (0x2cf3, 0x2cf3, 1),
    (0x2d00, 0x2d25, 1), (0x2d27, 0x2d27, 1), (0x2d2d, 0x2d2d, 1), (0xa641, 0xa66d, 2),
    (0xa681, 0xa699, 2), (0xa69b, 0xa69d, 1), (0xa723, 0xa72d, 2), (0xa72f, 0xa731, 1),
    (0xa733, 0xa76d, 2), (0xa76f, 0xa778, 1), (0xa77a, 0xa77c, 2), (0xa77f, 0xa787, 2),
    (0xa78c, 0xa78e, 2), (0xa791, 0xa791, 1), (0xa793, 0xa795, 1), (0xa797, 0xa7a9, 2),
    (0xa7af, 0xa7af, 1), (0xa7b5, 0xa7c3, 2), (0xa7c8, 0xa7ca, 2), (0xa7cd, 0xa7db, 2),
    (0xa7f1, 0xa7f4, 1), (0xa7f6, 0xa7f6, 1), (0xa7f8, 0xa7fa, 1), (0xab30, 0xab5a, 1),
    (0xab5c, 0xab69, 1), (0xab70, 0xabbf, 1), (0xfb00, 0xfb06, 1), (0xfb13, 0xfb17, 1),
    (0xff41, 0xff5a, 1), (0x10428, 0x1044f, 1), (0x104d8, 0x104fb, 1), (0x10597, 0x105a1, 1),
    (0x105a3, 0x105b1, 1), (0x105b3, 0x105b9, 1), (0x105bb, 0x105bc, 1), (0x10780, 0x10780, 1),
    (0x10783, 0x10785, 1), (0x10787, 0x107b0, 1), (0x107b2, 0x107ba, 1), (0x10cc0, 0x10cf2, 1),
    (0x10d70, 0x10d85, 1), (0x118c0, 0x118df, 1), (0x16e60, 0x16e7f, 1), (0x16ebb, 0x16ed3, 1),
    (0x1d41a, 0x1d433, 1), (0x1d44e, 0x1d454, 1), (0x1d456, 0x1d467, 1), (0x1d482, 0x1d49b, 1),
    (0x1d4b6, 0x1d4b9, 1), (0x1d4bb, 0x1d4bb, 1), (0x1d4bd, 0x1d4c3, 1), (0x1d4c5, 0x1d4cf, 1),
    (0x1d4ea, 0x1d503, 1), (0x1d51e, 0x1d537, 1), (0x1d552, 0x1d56b, 1), (0x1d586, 0x1d59f, 1),
    (0x1d5ba, 0x1d5d3, 1), (0x1d5ee, 0x1d607, 1), (0x1d622, 0x1d63b, 1), (0x1d656, 0x1d66f, 1),
    (0x1d68a, 0x1d6a5, 1), (0x1d6c2, 0x1d6da, 1), (0x1d6dc, 0x1d6e1, 1), (0x1d6fc, 0x1d714, 1),
    (0x1d716, 0x1d71b, 1), (0x1d736, 0x1d74e, 1), (0x1d750, 0x1d755, 1), (0x1d770, 0x1d788, 1),
    (0x1d78a, 0x1d78f, 1), (0x1d7aa, 0x1d7c2, 1), (0x1d7c4, 0x1d7c9, 1), (0x1d7cb, 0x1d7cb, 1),
    (0x1df00, 0x1df09, 1), (0x1df0b, 0x1df1e, 1), (0x1df25, 0x1df2a, 1), (0x1e030, 0x1e06d, 1),
    (0x1e922, 0x1e943, 1)]

/-- `Cased`, past ASCII -/
def casedTable : Progressions :=
  [(0xaa, 0xaa, 1), (0xb5, 0xb5, 1), (0xba, 0xba, 1), (0xc0, 0xd6, 1), (0xd8, 0xf6, 1),
    (0xf8, 0x1ba, 1), (0x1bc, 0x1bf, 1), (0x1c4, 0x293, 1), (0x296, 0x2b8, 1), (0x2c0, 0x2c1, 1),
    (0x2e0, 0x2e4, 1), (0x345, 0x345, 1), (0x370, 0x373, 1), (0x376, 0x377, 1), (0x37a, 0x37d, 1),
    (0x37f, 0x37f, 1), (0x386, 0x386, 1), (0x388, 0x38a, 1), (0x38c, 0x38c, 1), (0x38e, 0x3a1, 1),
    (0x3a3, 0x3f5, 1), (0x3f7, 0x481, 1), (0x48a, 0x52f, 1), (0x531, 0x556, 1), (0x560, 0x588, 1),
    (0x10a0, 0x10c5, 1), (0x10c7, 0x10c7, 1), (0x10cd, 0x10cd, 1), (0x10d0, 0x10fa, 1),
    (0x10fc, 0x10ff, 1), (0x13a0, 0x13f5, 1), (0x13f8, 0x13fd, 1), (0x1c80, 0x1c8a, 1),
    (0x1c90, 0x1cba, 1), (0x1cbd, 0x1cbf, 1), (0x1d00, 0x1dbf, 1), (0x1e00, 0x1f15, 1),
    (0x1f18, 0x1f1d, 1), (0x1f20, 0x1f45, 1), (0x1f48, 0x1f4d, 1), (0x1f50, 0x1f57, 1),
    (0x1f59, 0x1f5d, 2), (0x1f5f, 0x1f7d, 1), (0x1f80, 0x1fb4, 1), (0x1fb6, 0x1fbc, 1),
    (0x1fbe, 0x1fbe, 1), (0x1fc2, 0x1fc4, 1), (0x1fc6, 0x1fcc, 1), (0x1fd0, 0x1fd3, 1),
    (0x1fd6, 0x1fdb, 1), (0x1fe0, 0x1fec, 1), (0x1ff2, 0x1ff4, 1), (0x1ff6, 0x1ffc, 1),
    (0x2071, 0x2071, 1), (0x207f, 0x207f, 1), (0x2090, 0x209c, 1), (0x2102, 0x2102, 1),
    (0x2107, 0x2107, 1), (0x210a, 0x2113, 1), (0x2115, 0x2115, 1), (0x2119, 0x211d, 1),
    (0x2124, 0x2128, 2), (0x212a, 0x212d, 1), (0x212f, 0x2134, 1), (0x2139, 0x2139, 1),
    (0x213c, 0x213f, 1), (0x2145, 0x2149, 1), (0x214e, 0x214e, 1), (0x2160, 0x217f, 1),
    (0x2183, 0x2184, 1), (0x24b6, 0x24e9, 1), (0x2c00, 0x2ce4, 1), (0x2ceb, 0x2cee, 1),
    (0x2cf2, 0x2cf3, 1), (0x2d00, 0x2d25, 1), (0x2d27, 0x2d27, 1), (0x2d2d, 0x2d2d, 1),
    (0xa640, 0xa66d, 1), (0xa680, 0xa69d, 1), (0xa722, 0xa787, 1), (0xa78b, 0xa78e, 1),
    (0xa790, 0xa7dc, 1), (0xa7f1, 0xa7f6, 1), (0xa7f8, 0xa7fa, 1), (0xab30, 0xab5a, 1),
    (0xab5c, 0xab69, 1), (0xab70, 0xabbf, 1), (0xfb00, 0xfb06, 1), (0xfb13, 0xfb17, 1),
    (0xff21, 0xff3a, 1), (0xff41, 0xff5a, 1), (0x10400, 0x1044f, 1), (0x104b0, 0x104d3, 1),
    (0x104d8, 0x104fb, 1), (0x10570, 0x1057a, 1), (0x1057c, 0x1058a, 1), (0x1058c, 0x10592, 1),
    (0x10594, 0x10595, 1), (0x10597, 0x105a1, 1), (0x105a3, 0x105b1, 1), (0x105b3, 0x105b9, 1),
    (0x105bb, 0x105bc, 1), (0x10780, 0x10780, 1), (0x10783, 0x10785, 1), (0x10787, 0x107b0, 1),
    (0x107b2, 0x107ba, 1), (0x10c80, 0x10cb2, 1), (0x10cc0, 0x10cf2, 1), (0x10d50, 0x10d65, 1),
    (0x10d70, 0x10d85, 1), (0x118a0, 0x118df, 1), (0x16e40, 0x16e7f, 1), (0x16ea0, 0x16eb8, 1),
    (0x16ebb, 0x16ed3, 1), (0x1d400, 0x1d454, 1), (0x1d456, 0x1d49c, 1), (0x1d49e, 0x1d49f, 1),
    (0x1d4a2, 0x1d4a2, 1), (0x1d4a5, 0x1d4a6, 1), (0x1d4a9, 0x1d4ac, 1), (0x1d4ae, 0x1d4b9, 1),
    (0x1d4bb, 0x1d4bb, 1), (0x1d4bd, 0x1d4c3, 1), (0x1d4c5, 0x1d505, 1), (0x1d507, 0x1d50a, 1),
    (0x1d50d, 0x1d514, 1), (0x1d516, 0x1d51c, 1), (0x1d51e, 0x1d539, 1), (0x1d53b, 0x1d53e, 1),
    (0x1d540, 0x1d544, 1), (0x1d546, 0x1d546, 1), (0x1d54a, 0x1d550, 1), (0x1d552, 0x1d6a5, 1),
    (0x1d6a8, 0x1d6c0, 1), (0x1d6c2, 0x1d6da, 1), (0x1d6dc, 0x1d6fa, 1), (0x1d6fc, 0x1d714, 1),
    (0x1d716, 0x1d734, 1), (0x1d736, 0x1d74e, 1), (0x1d750, 0x1d76e, 1), (0x1d770, 0x1d788, 1),
    (0x1d78a, 0x1d7a8, 1), (0x1d7aa, 0x1d7c2, 1), (0x1d7c4, 0x1d7cb, 1), (0x1df00, 0x1df09, 1),
    (0x1df0b, 0x1df1e, 1), (0x1df25, 0x1df2a, 1), (0x1e030, 0x1e06d, 1), (0x1e900, 0x1e943, 1),
    (0x1f130, 0x1f149, 1), (0x1f150, 0x1f169, 1), (0x1f170, 0x1f189, 1)]

/-- `Case_Ignorable`, past ASCII -/
def caseIgnorableTable : Progressions :=
  [(0xa8, 0xa8, 1), (0xad, 0xaf, 2), (0xb4, 0xb4, 1), (0xb7, 0xb8, 1), (0x2b0, 0x36f, 1),
    (0x374, 0x375, 1), (0x37a, 0x37a, 1), (0x384, 0x385, 1), (0x387, 0x387, 1), (0x483, 0x489, 1),
    (0x559, 0x559, 1), (0x55f, 0x55f, 1), (0x591, 0x5bd, 1), (0x5bf, 0x5bf, 1), (0x5c1, 0x5c2, 1),
    (0x5c4, 0x5c5, 1), (0x5c7, 0x5c7, 1), (0x5f4, 0x5f4, 1), (0x600, 0x605, 1), (0x610, 0x61a, 1),
    (0x61c, 0x61c, 1), (0x640, 0x640, 1), (0x64b, 0x65f, 1), (0x670, 0x670, 1), (0x6d6, 0x6dd, 1),
    (0x6df, 0x6e8, 1), (0x6ea, 0x6ed, 1), (0x70f, 0x711, 2), (0x730, 0x74a, 1), (0x7a6, 0x7b0, 1),
    (0x7eb, 0x7f5, 1), (0x7fa, 0x7fa, 1), (0x7fd, 0x7fd, 1), (0x816, 0x82d, 1), (0x859, 0x85b, 1),
    (0x888, 0x888, 1), (0x890, 0x891, 1), (0x897, 0x89f, 1), (0x8c9, 0x902, 1), (0x93a, 0x93c, 2),
    (0x941, 0x948, 1), (0x94d, 0x94d, 1), (0x951, 0x957, 1), (0x962, 0x963, 1), (0x971, 0x971, 1),
    (0x981, 0x981, 1), (0x9bc, 0x9bc, 1), (0x9c1, 0x9c4, 1), (0x9cd, 0x9cd, 1), (0x9e2, 0x9e3, 1),
    (0x9fe, 0x9fe, 1), (0xa01, 0xa02, 1), (0xa3c, 0xa3c, 1), (0xa41, 0xa42, 1), (0xa47, 0xa48, 1),
    (0xa4b, 0xa4d, 1), (0xa51, 0xa51, 1), (0xa70, 0xa71, 1), (0xa75, 0xa75, 1), (0xa81, 0xa82, 1),
    (0xabc, 0xabc, 1), (0xac1, 0xac5, 1), (0xac7, 0xac8, 1), (0xacd, 0xacd, 1), (0xae2, 0xae3, 1),
    (0xafa, 0xaff, 1), (0xb01, 0xb01, 1), (0xb3c, 0xb3c, 1), (0xb3f, 0xb3f, 1), (0xb41, 0xb44, 1),
    (0xb4d, 0xb4d, 1), (0xb55, 0xb56, 1), (0xb62, 0xb63, 1), (0xb82, 0xb82, 1), (0xbc0, 0xbc0, 1),
    (0xbcd, 0xbcd, 1), (0xc00, 0xc00, 1), (0xc04, 0xc04, 1), (0xc3c, 0xc3c, 1), (0xc3e, 0xc40, 1),
    (0xc46, 0xc48, 1), (0xc4a, 0xc4d, 1), (0xc55, 0xc56, 1), (0xc62, 0xc63, 1), (0xc81, 0xc81, 1),
    (0xcbc, 0xcbc, 1), (0xcbf, 0xcbf, 1), (0xcc6, 0xcc6, 1), (0xccc, 0xccd, 1), (0xce2, 0xce3, 1),
    (0xd00, 0xd01, 1), (0xd3b, 0xd3c, 1), (0xd41, 0xd44, 1), (0xd4d, 0xd4d, 1), (0xd62, 0xd63, 1),
    (0xd81, 0xd81, 1), (0xdca, 0xdca, 1), (0xdd2, 0xdd4, 1), (0xdd6, 0xdd6, 1), (0xe31, 0xe31, 1),
    (0xe34, 0xe3a, 1), (0xe46, 0xe4e, 1), (0xeb1, 0xeb1, 1), (0xeb4, 0xebc, 1), (0xec6, 0xec6, 1),
    (0xec8, 0xece, 1), (0xf18, 0xf19, 1), (0xf35, 0xf39, 2), (0xf71, 0xf7e, 1), (0xf80, 0xf84, 1),
    (0xf86, 0xf87, 1), (0xf8d, 0xf97, 1), (0xf99, 0xfbc, 1), (0xfc6, 0xfc6, 1),
    (0x102d, 0x1030, 1), (0x1032, 0x1037, 1), (0x1039, 0x103a, 1), (0x103d, 0x103e, 1),
    (0x1058, 0x1059, 1), (0x105e, 0x1060, 1), (0x1071, 0x1074, 1), (0x1082, 0x1082, 1),
    (0x1085, 0x1086, 1), (0x108d, 0x108d, 1), (0x109d, 0x109d, 1), (0x10fc, 0x10fc, 1),
    (0x135d, 0x135f, 1), (0x1712, 0x1714, 1), (0x1732, 0x1733, 1), (0x1752, 0x1753, 1),
    (0x1772, 0x1773, 1), (0x17b4, 0x17b5, 1), (0x17b7, 0x17bd, 1), (0x17c6, 0x17c6, 1),
    (0x17c9, 0x17d3, 1), (0x17d7, 0x17d7, 1), (0x17dd, 0x17dd, 1), (0x180b, 0x180f, 1),
    (0x1843, 0x1843, 1), (0x1885, 0x1886, 1), (0x18a9, 0x18a9, 1), (0x1920, 0x1922, 1),
    (0x1927, 0x1928, 1), (0x1932, 0x1932, 1), (0x1939, 0x193b, 1), (0x1a17, 0x1a18, 1),
    (0x1a1b, 0x1a1b, 1), (0x1a56, 0x1a56, 1), (0x1a58, 0x1a5e, 1), (0x1a60, 0x1a62, 2),
    (0x1a65, 0x1a6c, 1), (0x1a73, 0x1a7c, 1), (0x1a7f, 0x1a7f, 1), (0x1aa7, 0x1aa7, 1),
    (0x1ab0, 0x1add, 1), (0x1ae0, 0x1aeb, 1), (0x1b00, 0x1b03, 1), (0x1b34, 0x1b34, 1),
    (0x1b36, 0x1b3a, 1), (0x1b3c, 0x1b3c, 1), (0x1b42, 0x1b42, 1), (0x1b6b, 0x1b73, 1),
    (0x1b80, 0x1b81, 1), (0x1ba2, 0x1ba5, 1), (0x1ba8, 0x1ba9, 1), (0x1bab, 0x1bad, 1),
    (0x1be6, 0x1be6, 1), (0x1be8, 0x1be9, 1), (0x1bed, 0x1bed, 1), (0x1bef, 0x1bf1, 1),
    (0x1c2c, 0x1c33, 1), (0x1c36, 0x1c37, 1), (0x1c78, 0x1c7d, 1), (0x1cd0, 0x1cd2, 1),
    (0x1cd4, 0x1ce0, 1), (0x1ce2, 0x1ce8, 1), (0x1ced, 0x1ced, 1), (0x1cf4, 0x1cf4, 1),
    (0x1cf8, 0x1cf9, 1), (0x1d2c, 0x1d6a, 1), (0x1d78, 0x1d78, 1), (0x1d9b, 0x1dff, 1),
    (0x1fbd, 0x1fbd, 1), (0x1fbf, 0x1fc1, 1), (0x1fcd, 0x1fcf, 1), (0x1fdd, 0x1fdf, 1),
    (0x1fed, 0x1fef, 1), (0x1ffd, 0x1ffe, 1), (0x200b, 0x200f, 1), (0x2018, 0x2019, 1),
    (0x2024, 0x2024, 1), (0x2027, 0x2027, 1), (0x202a, 0x202e, 1), (0x2060, 0x2064, 1),
    (0x2066, 0x206f, 1), (0x2071, 0x2071, 1), (0x207f, 0x207f, 1), (0x2090, 0x209c, 1),
    (0x20d0, 0x20f0, 1), (0x2c7c, 0x2c7d, 1), (0x2cef, 0x2cf1, 1), (0x2d6f, 0x2d6f, 1),
    (0x2d7f, 0x2d7f, 1), (0x2de0, 0x2dff, 1), (0x2e2f, 0x2e2f, 1), (0x3005, 0x3005, 1),
    (0x302a, 0x302d, 1), (0x3031, 0x3035, 1), (0x303b, 0x303b, 1), (0x3099, 0x309e, 1),
    (0x30fc, 0x30fe, 1), (0xa015, 0xa015, 1), (0xa4f8, 0xa4fd, 1), (0xa60c, 0xa60c, 1),
    (0xa66f, 0xa672, 1), (0xa674, 0xa67d, 1), (0xa67f, 0xa67f, 1), (0xa69c, 0xa69f, 1),
    (0xa6f0, 0xa6f1, 1), (0xa700, 0xa721, 1), (0xa770, 0xa770, 1), (0xa788, 0xa78a, 1),
    (0xa7f1, 0xa7f4, 1), (0xa7f8, 0xa7f9, 1), (0xa802, 0xa802, 1), (0xa806, 0xa806, 1),
    (0xa80b, 0xa80b, 1), (0xa825, 0xa826, 1), (0xa82c, 0xa82c, 1), (0xa8c4, 0xa8c5, 1),
    (0xa8e0, 0xa8f1, 1), (0xa8ff, 0xa8ff, 1), (0xa926, 0xa92d, 1), (0xa947, 0xa951, 1),
    (0xa980, 0xa982, 1), (0xa9b3, 0xa9b3, 1), (0xa9b6, 0xa9b9, 1), (0xa9bc, 0xa9bd, 1),
    (0xa9cf, 0xa9cf, 1), (0xa9e5, 0xa9e6, 1), (0xaa29, 0xaa2e, 1), (0xaa31, 0xaa32, 1),
    (0xaa35, 0xaa36, 1), (0xaa43, 0xaa43, 1), (0xaa4c, 0xaa4c, 1), (0xaa70, 0xaa70, 1),
    (0xaa7c, 0xaa7c, 1), (0xaab0, 0xaab0, 1), (0xaab2, 0xaab4, 1), (0xaab7, 0xaab8, 1),
    (0xaabe, 0xaabf, 1), (0xaac1, 0xaac1, 1), (0xaadd, 0xaadd, 1), (0xaaec, 0xaaed, 1),
    (0xaaf3, 0xaaf4, 1), (0xaaf6, 0xaaf6, 1), (0xab5b, 0xab5f, 1), (0xab69, 0xab6b, 1),
    (0xabe5, 0xabe5, 1), (0xabe8, 0xabe8, 1), (0xabed, 0xabed, 1), (0xfb1e, 0xfb1e, 1),
    (0xfbb2, 0xfbc2, 1), (0xfe00, 0xfe0f, 1), (0xfe13, 0xfe13, 1), (0xfe20, 0xfe2f, 1),
    (0xfe52, 0xfe52, 1), (0xfe55, 0xfe55, 1), (0xfeff, 0xfeff, 1), (0xff07, 0xff07, 1),
    (0xff0e, 0xff0e, 1), (0xff1a, 0xff1a, 1), (0xff3e, 0xff40, 2), (0xff70, 0xff70, 1),
    (0xff9e, 0xff9f, 1), (0xffe3, 0xffe3, 1), (0xfff9, 0xfffb, 1), (0x101fd, 0x101fd, 1),
    (0x102e0, 0x102e0, 1), (0x10376, 0x1037a, 1), (0x10780, 0x10785, 1), (0x10787, 0x107b0, 1),
    (0x107b2, 0x107ba, 1), (0x10a01, 0x10a03, 1), (0x10a05, 0x10a06, 1), (0x10a0c, 0x10a0f, 1),
    (0x10a38, 0x10a3a, 1), (0x10a3f, 0x10a3f, 1), (0x10ae5, 0x10ae6, 1), (0x10d24, 0x10d27, 1),
    (0x10d4e, 0x10d4e, 1), (0x10d69, 0x10d6d, 1), (0x10d6f, 0x10d6f, 1), (0x10eab, 0x10eac, 1),
    (0x10ec5, 0x10ec5, 1), (0x10efa, 0x10eff, 1), (0x10f46, 0x10f50, 1), (0x10f82, 0x10f85, 1),
    (0x11001, 0x11001, 1), (0x11038, 0x11046, 1), (0x11070, 0x11070, 1), (0x11073, 0x11074, 1),
    (0x1107f, 0x11081, 1), (0x110b3, 0x110b6, 1), (0x110b9, 0x110ba, 1), (0x110bd, 0x110bd, 1),
    (0x110c2, 0x110c2, 1), (0x110cd, 0x110cd, 1), (0x11100, 0x11102, 1), (0x11127, 0x1112b, 1),
    (0x1112d, 0x11134, 1), (0x11173, 0x11173, 1), (0x11180, 0x11181, 1), (0x111b6, 0x111be, 1),
    (0x111c9, 0x111cc, 1), (0x111cf, 0x111cf, 1), (0x1122f, 0x11231, 1), (0x11234, 0x11234, 1),
    (0x11236, 0x11237, 1), (0x1123e, 0x1123e, 1), (0x11241, 0x11241, 1), (0x112df, 0x112df, 1),
    (0x112e3, 0x112ea, 1), (0x11300, 0x11301, 1), (0x1133b, 0x1133c, 1), (0x11340, 0x11340, 1),
    (0x11366, 0x1136c, 1), (0x11370, 0x11374, 1), (0x113bb, 0x113c0, 1), (0x113ce, 0x113d2, 2),
    (0x113e1, 0x113e2, 1), (0x11438, 0x1143f, 1), (0x11442, 0x11444, 1), (0x11446, 0x11446, 1),
    (0x1145e, 0x1145e, 1), (0x114b3, 0x114b8, 1), (0x114ba, 0x114ba, 1), (0x114bf, 0x114c0, 1),
    (0x114c2, 0x114c3, 1), (0x115b2, 0x115b5, 1), (0x115bc, 0x115bd, 1), (0x115bf, 0x115c0, 1),
    (0x115dc, 0x115dd, 1), (0x11633, 0x1163a, 1), (0x1163d, 0x1163d, 1), (0x1163f, 0x11640, 1),
    (0x116ab, 0x116ad, 2), (0x116b0, 0x116b5, 1), (0x116b7, 0x116b7, 1), (0x1171d, 0x1171f, 2),
    (0x11722, 0x11725, 1), (0x11727, 0x1172b, 1), (0x1182f, 0x11837, 1), (0x11839, 0x1183a, 1),
    (0x1193b, 0x1193c, 1), (0x1193e, 0x1193e, 1), (0x11943, 0x11943, 1), (0x119d4, 0x119d7, 1),
    (0x119da, 0x119db, 1), (0x119e0, 0x119e0, 1), (0x11a01, 0x11a0a, 1), (0x11a33, 0x11a38, 1),
    (0x11a3b, 0x11a3e, 1), (0x11a47, 0x11a47, 1), (0x11a51, 0x11a56, 1), (0x11a59, 0x11a5b, 1),
    (0x11a8a, 0x11a96, 1), (0x11a98, 0x11a99, 1), (0x11b60, 0x11b60, 1), (0x11b62, 0x11b64, 1),
    (0x11b66, 0x11b66, 1), (0x11c30, 0x11c36, 1), (0x11c38, 0x11c3d, 1), (0x11c3f, 0x11c3f, 1),
    (0x11c92, 0x11ca7, 1), (0x11caa, 0x11cb0, 1), (0x11cb2, 0x11cb3, 1), (0x11cb5, 0x11cb6, 1),
    (0x11d31, 0x11d36, 1), (0x11d3a, 0x11d3a, 1), (0x11d3c, 0x11d3d, 1), (0x11d3f, 0x11d45, 1),
    (0x11d47, 0x11d47, 1), (0x11d90, 0x11d91, 1), (0x11d95, 0x11d97, 2), (0x11dd9, 0x11dd9, 1),
    (0x11ef3, 0x11ef4, 1), (0x11f00, 0x11f01, 1), (0x11f36, 0x11f3a, 1), (0x11f40, 0x11f42, 2),
    (0x11f5a, 0x11f5a, 1), (0x13430, 0x13440, 1), (0x13447, 0x13455, 1), (0x1611e, 0x16129, 1),
    (0x1612d, 0x1612f, 1), (0x16af0, 0x16af4, 1), (0x16b30, 0x16b36, 1), (0x16b40, 0x16b43, 1),
    (0x16d40, 0x16d42, 1), (0x16d6b, 0x16d6c, 1), (0x16f4f, 0x16f4f, 1), (0x16f8f, 0x16f9f, 1),
    (0x16fe0, 0x16fe1, 1), (0x16fe3, 0x16fe4, 1), (0x16ff2, 0x16ff3, 1), (0x1aff0, 0x1aff3, 1),
    (0x1aff5, 0x1affb, 1), (0x1affd, 0x1affe, 1), (0x1bc9d, 0x1bc9e, 1), (0x1bca0, 0x1bca3, 1),
    (0x1cf00, 0x1cf2d, 1), (0x1cf30, 0x1cf46, 1), (0x1d167, 0x1d169, 1), (0x1d173, 0x1d182, 1),
    (0x1d185, 0x1d18b, 1), (0x1d1aa, 0x1d1ad, 1), (0x1d242, 0x1d244, 1), (0x1da00, 0x1da36, 1),
    (0x1da3b, 0x1da6c, 1), (0x1da75, 0x1da75, 1), (0x1da84, 0x1da84, 1), (0x1da9b, 0x1da9f, 1),
    (0x1daa1, 0x1daaf, 1), (0x1e000, 0x1e006, 1), (0x1e008, 0x1e018, 1), (0x1e01b, 0x1e021, 1),
    (0x1e023, 0x1e024, 1), (0x1e026, 0x1e02a, 1), (0x1e030, 0x1e06d, 1), (0x1e08f, 0x1e08f, 1),
    (0x1e130, 0x1e13d, 1), (0x1e2ae, 0x1e2ae, 1), (0x1e2ec, 0x1e2ef, 1), (0x1e4eb, 0x1e4ef, 1),
    (0x1e5ee, 0x1e5ef, 1), (0x1e6e3, 0x1e6e3, 1), (0x1e6e6, 0x1e6e6, 1), (0x1e6ee, 0x1e6ef, 1),
    (0x1e6f5, 0x1e6f5, 1), (0x1e6ff, 0x1e6ff, 1), (0x1e8d0, 0x1e8d6, 1), (0x1e944, 0x1e94b, 1),
    (0x1f3fb, 0x1f3ff, 1), (0xe0001, 0xe0001, 1), (0xe0020, 0xe007f, 1), (0xe0100, 0xe01ef, 1)]

/-- code points whose lowercase is one character: `(first, last, step, shift)` -/
def lowercaseShifts : List (Nat × Nat × Nat × Int) :=
  [(0xc0, 0xd6, 1, 32), (0xd8, 0xde, 1, 32), (0x100, 0x12e, 2, 1), (0x132, 0x136, 2, 1),
    (0x139, 0x147, 2, 1), (0x14a, 0x176, 2, 1), (0x178, 0x178, 1, -121), (0x179, 0x17d, 2, 1),
    (0x181, 0x181, 1, 210), (0x182, 0x184, 2, 1), (0x186, 0x186, 1, 206), (0x187, 0x187, 1, 1),
    (0x189, 0x18a, 1, 205), (0x18b, 0x18b, 1, 1), (0x18e, 0x18e, 1, 79), (0x18f, 0x18f, 1, 202),
    (0x190, 0x190, 1, 203), (0x191, 0x191, 1, 1), (0x193, 0x193, 1, 205), (0x194, 0x194, 1, 207),
    (0x196, 0x196, 1, 211), (0x197, 0x197, 1, 209), (0x198, 0x198, 1, 1), (0x19c, 0x19c, 1, 211),
    (0x19d, 0x19d, 1, 213), (0x19f, 0x19f, 1, 214), (0x1a0, 0x1a4, 2, 1), (0x1a6, 0x1a6, 1, 218),
    (0x1a7, 0x1a7, 1, 1), (0x1a9, 0x1a9, 1, 218), (0x1ac, 0x1ac, 1, 1), (0x1ae, 0x1ae, 1, 218),
    (0x1af, 0x1af, 1, 1), (0x1b1, 0x1b2, 1, 217), (0x1b3, 0x1b5, 2, 1), (0x1b7, 0x1b7, 1, 219),
    (0x1b8, 0x1b8, 1, 1), (0x1bc, 0x1bc, 1, 1), (0x1c4, 0x1c4, 1, 2), (0x1c5, 0x1c5, 1, 1),
    (0x1c7, 0x1c7, 1, 2), (0x1c8, 0x1c8, 1, 1), (0x1ca, 0x1ca, 1, 2), (0x1cb, 0x1db, 2, 1),
    (0x1de, 0x1ee, 2, 1), (0x1f1, 0x1f1, 1, 2), (0x1f2, 0x1f4, 2, 1), (0x1f6, 0x1f6, 1, -97),
    (0x1f7, 0x1f7, 1, -56), (0x1f8, 0x21e, 2, 1), (0x220, 0x220, 1, -130), (0x222, 0x232, 2, 1),
    (0x23a, 0x23a, 1, 10795), (0x23b, 0x23b, 1, 1), (0x23d, 0x23d, 1, -163),
    (0x23e, 0x23e, 1, 10792), (0x241, 0x241, 1, 1), (0x243, 0x243, 1, -195), (0x244, 0x244, 1, 69),
    (0x245, 0x245, 1, 71), (0x246, 0x24e, 2, 1), (0x370, 0x372, 2, 1), (0x376, 0x376, 1, 1),
    (0x37f, 0x37f, 1, 116), (0x386, 0x386, 1, 38), (0x388, 0x38a, 1, 37), (0x38c, 0x38c, 1, 64),
    (0x38e, 0x38f, 1, 63), (0x391, 0x3a1, 1, 32), (0x3a3, 0x3ab, 1, 32), (0x3cf, 0x3cf, 1, 8),
    (0x3d8, 0x3ee, 2, 1), (0x3f4, 0x3f4, 1, -60), (0x3f7, 0x3f7, 1, 1), (0x3f9, 0x3f9, 1, -7),
    (0x3fa, 0x3fa, 1, 1), (0x3fd, 0x3ff, 1, -130), (0x400, 0x40f, 1, 80), (0x410, 0x42f, 1, 32),
    (0x460, 0x480, 2, 1), (0x48a, 0x4be, 2, 1), (0x4c0, 0x4c0, 1, 15), (0x4c1, 0x4cd, 2, 1),
    (0x4d0, 0x52e, 2, 1), (0x531, 0x556, 1, 48), (0x10a0, 0x10c5, 1, 7264),
    (0x10c7, 0x10c7, 1, 7264), (0x10cd, 0x10cd, 1, 7264), (0x13a0, 0x13ef, 1, 38864),
    (0x13f0, 0x13f5, 1, 8), (0x1c89, 0x1c89, 1, 1), (0x1c90, 0x1cba, 1, -3008),
    (0x1cbd, 0x1cbf, 1, -3008), (0x1e00, 0x1e94, 2, 1), (0x1e9e, 0x1e9e, 1, -7615),
    (0x1ea0, 0x1efe, 2, 1), (0x1f08, 0x1f0f, 1, -8), (0x1f18, 0x1f1d, 1, -8),
    (0x1f28, 0x1f2f, 1, -8), (0x1f38, 0x1f3f, 1, -8), (0x1f48, 0x1f4d, 1, -8),
    (0x1f59, 0x1f5f, 2, -8), (0x1f68, 0x1f6f, 1, -8), (0x1f88, 0x1f8f, 1, -8),
    (0x1f98, 0x1f9f, 1, -8), (0x1fa8, 0x1faf, 1, -8), (0x1fb8, 0x1fb9, 1, -8),
    (0x1fba, 0x1fbb, 1, -74), (0x1fbc, 0x1fbc, 1, -9), (0x1fc8, 0x1fcb, 1, -86),
    (0x1fcc, 0x1fcc, 1, -9), (0x1fd8, 0x1fd9, 1, -8), (0x1fda, 0x1fdb, 1, -100),
    (0x1fe8, 0x1fe9, 1, -8), (0x1fea, 0x1feb, 1, -112), (0x1fec, 0x1fec, 1, -7),
    (0x1ff8, 0x1ff9, 1, -128), (0x1ffa, 0x1ffb, 1, -126), (0x1ffc, 0x1ffc, 1, -9),
    (0x2126, 0x2126, 1, -7517), (0x212a, 0x212a, 1, -8383), (0x212b, 0x212b, 1, -8262),
    (0x2132, 0x2132, 1, 28), (0x2160, 0x216f, 1, 16), (0x2183, 0x2183, 1, 1),
    (0x24b6, 0x24cf, 1, 26), (0x2c00, 0x2c2f, 1, 48), (0x2c60, 0x2c60, 1, 1),
    (0x2c62, 0x2c62, 1, -10743), (0x2c63, 0x2c63, 1, -3814), (0x2c64, 0x2c64, 1, -10727),
    (0x2c67, 0x2c6b, 2, 1), (0x2c6d, 0x2c6d, 1, -10780), (0x2c6e, 0x2c6e, 1, -10749),
    (0x2c6f, 0x2c6f, 1, -10783), (0x2c70, 0x2c70, 1, -10782), (0x2c72, 0x2c72, 1, 1),
    (0x2c75, 0x2c75, 1, 1), (0x2c7e, 0x2c7f, 1, -10815), (0x2c80, 0x2ce2, 2, 1),
    (0x2ceb, 0x2ced, 2, 1), (0x2cf2, 0x2cf2, 1, 1), (0xa640, 0xa66c, 2, 1), (0xa680, 0xa69a, 2, 1),
    (0xa722, 0xa72e, 2, 1), (0xa732, 0xa76e, 2, 1), (0xa779, 0xa77b, 2, 1),
    (0xa77d, 0xa77d, 1, -35332), (0xa77e, 0xa786, 2, 1), (0xa78b, 0xa78b, 1, 1),
    (0xa78d, 0xa78d, 1, -42280), (0xa790, 0xa792, 2, 1), (0xa796, 0xa7a8, 2, 1),
    (0xa7aa, 0xa7aa, 1, -42308), (0xa7ab, 0xa7ab, 1, -42319), (0xa7ac, 0xa7ac, 1, -42315),
    (0xa7ad, 0xa7ad, 1, -42305), (0xa7ae, 0xa7ae, 1, -42308), (0xa7b0, 0xa7b0, 1, -42258),
    (0xa7b1, 0xa7b1, 1, -42282), (0xa7b2, 0xa7b2, 1, -42261), (0xa7b3, 0xa7b3, 1, 928),
    (0xa7b4, 0xa7c2, 2, 1), (0xa7c4, 0xa7c4, 1, -48), (0xa7c5, 0xa7c5, 1, -42307),
    (0xa7c6, 0xa7c6, 1, -35384), (0xa7c7, 0xa7c9, 2, 1), (0xa7cb, 0xa7cb, 1, -42343),
    (0xa7cc, 0xa7da, 2, 1), (0xa7dc, 0xa7dc, 1, -42561), (0xa7f5, 0xa7f5, 1, 1),
    (0xff21, 0xff3a, 1, 32), (0x10400, 0x10427, 1, 40), (0x104b0, 0x104d3, 1, 40),
    (0x10570, 0x1057a, 1, 39), (0x1057c, 0x1058a, 1, 39), (0x1058c, 0x10592, 1, 39),
    (0x10594, 0x10595, 1, 39), (0x10c80, 0x10cb2, 1, 64), (0x10d50, 0x10d65, 1, 32),
    (0x118a0, 0x118bf, 1, 32), (0x16e40, 0x16e5f, 1, 32), (0x16ea0, 0x16eb8, 1, 27),
    (0x1e900, 0x1e921, 1, 34)]

def isAlphabetic (c : Char) : Bool :=
  isAsciiAlphabetic c || (0x7F < c.toNat && alphabeticTable.has c.toNat)

def isNumeric (c : Char) : Bool :=
  isAsciiDigit c || (0x7F < c.toNat && numericTable.has c.toNat)

def isAlphanumeric (c : Char) : Bool := isAlphabetic c || isNumeric c

def isUppercase (c : Char) : Bool :=
  isAsciiUppercase c || (0x7F < c.toNat && uppercaseTable.has c.toNat)

def isLowercase (c : Char) : Bool :=
  isAsciiLowercase c || (0x7F < c.toNat && lowercaseTable.has c.toNat)

def isCased (c : Char) : Bool :=
  isAsciiAlphabetic c || (0x7F < c.toNat && casedTable.has c.toNat)

/-- in ASCII: `'`, `.`, `:`, `^` and the grave accent -/
def isCaseIgnorable (c : Char) : Bool :=
  (c.toNat == 0x27 || c.toNat == 0x2E || c.toNat == 0x3A || c.toNat == 0x5E || c.toNat == 0x60) ||
    (0x7F < c.toNat && caseIgnorableTable.has c.toNat)

def charToLowercase (c : Char) : List Char :=
  if c.toNat ≤ 0x7F then [toAsciiLowercase c]
  else if c.toNat == 0x130 then ['i', Char.ofNat 0x307]
  else
    match lowercaseShifts.find? fun p =>
      p.1 ≤ c.toNat && c.toNat ≤ p.2.1 && (c.toNat - p.1) % p.2.2.1 == 0 with
    | some p => [Char.ofNat (c.toNat + p.2.2.2).toNat]
    | none => [c]

/-- the first character that is not case-ignorable is cased -/
def caseIgnorableThenCased : List Char → Bool
  | [] => false
  | c :: s => if isCaseIgnorable c then caseIgnorableThenCased s else isCased c

/-- `before` is the text before `s`, reversed: a capital sigma looks at both sides -/
def toLowercaseFrom (before : List Char) : List Char → List Char
  | [] => []
  | c :: s =>
    (if c.toNat == 0x3A3 then
      [if caseIgnorableThenCased before && !caseIgnorableThenCased s then Char.ofNat 0x3C2
        else Char.ofNat 0x3C3]
    else charToLowercase c) ++ toLowercaseFrom (c :: before) s

def toLowercase (s : List Char) : List Char := toLowercaseFrom [] s

theorem charToLowercase_ascii {c : Char} (h : c.toNat ≤ 0x7F) :
    charToLowercase c = [toAsciiLowercase c] := by
  unfold charToLowercase
  rw [if_pos h]

theorem lowercaseShifts_above : ∀ p ∈ lowercaseShifts,
    (p.1 = 0x212A ∧ p.2.1 = 0x212A) ∨ 0x7F < (p.1 : Int) + p.2.2.2 := by decide +kernel

theorem toNat_ofNat (n : Nat) : (Char.ofNat n).toNat = n ∨ (Char.ofNat n).toNat = 0 := by
  unfold Char.ofNat
  split
  · exact Or.inl rfl
  · exact Or.inr rfl

/-- the Kelvin sign is the only character above ASCII with an ASCII lowercase -/
theorem charToLowercase_above {b c : Char} (hb : 0x7F < b.toNat) (hk : b.toNat ≠ 0x212A)
    (h : charToLowercase b = [c]) : 0x7F < c.toNat ∨ c.toNat = 0 := by
  unfold charToLowercase at h
  rw [if_neg (by omega)] at h
  split at h
  · cases h
  split at h
  · rename_i p hp
    have hmem := List.mem_of_find?_eq_some hp
    have hcond := List.find?_some hp
    simp only [Bool.and_eq_true, decide_eq_true_eq] at hcond
    have hn : 0x7F < ((b.toNat : Int) + p.2.2.2).toNat := by
      rcases lowercaseShifts_above p hmem with ⟨h1, h2⟩ | h1
      · omega
      · omega
    have hc : Char.ofNat ((b.toNat : Int) + p.2.2.2).toNat = c := (List.cons.inj h).1
    rw [← hc]
    rcases toNat_ofNat ((b.toNat : Int) + p.2.2.2).toNat with h0 | h0
    · exact Or.inl (by rw [h0]; exact hn)
    · exact Or.inr h0
  · rw [← (List.cons.inj h).1]
    exact Or.inl hb

theorem toLowercase_ascii {s : List Char} (h : ∀ c ∈ s, c.toNat ≤ 0x7F) :
    toLowercase s = asciiLowercase s := by
  unfold toLowercase
  generalize ([] : List Char) = before
  induction s generalizing before with
  | nil => rfl
  | cons c s ih =>
    have hc := h c List.mem_cons_self
    have hsigma : (c.toNat == 0x3A3) = false := by
      rw [beq_eq_false_iff_ne]
      omega
    unfold toLowercaseFrom
    rw [hsigma, if_neg (by simp), charToLowercase_ascii hc,
      ih (fun d hd => h d (List.mem_cons_of_mem _ hd))]
    rfl

end Voisu.Lib
