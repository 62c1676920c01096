/-
ProcBook/Text/HiddenTable.lean

Characters beyond ASCII that a quoted text shows by their number, as the increasing list of code
points at which the class begins or ends.  The class is that of the Unicode categories Other and
Separator and of the property Grapheme_Extend together.
-/

namespace ProcBook.Text

/-- Code points from 0x80 on at which the class of hidden characters begins (even places) or ends (odd places). -/
def hiddenFlips : List Nat := [
  0x00080, 0x000a1, 0x000ad, 0x000ae, 0x00300, 0x00370, 0x00378, 0x0037a, 0x00380, 0x00384,
  0x0038b, 0x0038c, 0x0038d, 0x0038e, 0x003a2, 0x003a3, 0x00483, 0x0048a, 0x00530, 0x00531,
  0x00557, 0x00559, 0x0058b, 0x0058d, 0x00590, 0x005be, 0x005bf, 0x005c0, 0x005c1, 0x005c3,
  0x005c4, 0x005c6, 0x005c7, 0x005d0, 0x005eb, 0x005ef, 0x005f5, 0x00606, 0x00610, 0x0061b,
  0x0061c, 0x0061d, 0x0064b, 0x00660, 0x00670, 0x00671, 0x006d6, 0x006de, 0x006df, 0x006e5,
  0x006e7, 0x006e9, 0x006ea, 0x006ee, 0x0070e, 0x00710, 0x00711, 0x00712, 0x00730, 0x0074d,
  0x007a6, 0x007b1, 0x007b2, 0x007c0, 0x007eb, 0x007f4, 0x007fb, 0x007fe, 0x00816, 0x0081a,
  0x0081b, 0x00824, 0x00825, 0x00828, 0x00829, 0x00830, 0x0083f, 0x00840, 0x00859, 0x0085e,
  0x0085f, 0x00860, 0x0086b, 0x00870, 0x00890, 0x008a0, 0x008ca, 0x00903, 0x0093a, 0x0093b,
  0x0093c, 0x0093d, 0x00941, 0x00949, 0x0094d, 0x0094e, 0x00951, 0x00958, 0x00962, 0x00964,
  0x00981, 0x00982, 0x00984, 0x00985, 0x0098d, 0x0098f, 0x00991, 0x00993, 0x009a9, 0x009aa,
  0x009b1, 0x009b2, 0x009b3, 0x009b6, 0x009ba, 0x009bd, 0x009be, 0x009bf, 0x009c1, 0x009c7,
  0x009c9, 0x009cb, 0x009cd, 0x009ce, 0x009cf, 0x009dc, 0x009de, 0x009df, 0x009e2, 0x009e6,
  0x009fe, 0x00a03, 0x00a04, 0x00a05, 0x00a0b, 0x00a0f, 0x00a11, 0x00a13, 0x00a29, 0x00a2a,
  0x00a31, 0x00a32, 0x00a34, 0x00a35, 0x00a37, 0x00a38, 0x00a3a, 0x00a3e, 0x00a41, 0x00a59,
  0x00a5d, 0x00a5e, 0x00a5f, 0x00a66, 0x00a70, 0x00a72, 0x00a75, 0x00a76, 0x00a77, 0x00a83,
  0x00a84, 0x00a85, 0x00a8e, 0x00a8f, 0x00a92, 0x00a93, 0x00aa9, 0x00aaa, 0x00ab1, 0x00ab2,
  0x00ab4, 0x00ab5, 0x00aba, 0x00abd, 0x00ac1, 0x00ac9, 0x00aca, 0x00acb, 0x00acd, 0x00ad0,
  0x00ad1, 0x00ae0, 0x00ae2, 0x00ae6, 0x00af2, 0x00af9, 0x00afa, 0x00b02, 0x00b04, 0x00b05,
  0x00b0d, 0x00b0f, 0x00b11, 0x00b13, 0x00b29, 0x00b2a, 0x00b31, 0x00b32, 0x00b34, 0x00b35,
  0x00b3a, 0x00b3d, 0x00b3e, 0x00b40, 0x00b41, 0x00b47, 0x00b49, 0x00b4b, 0x00b4d, 0x00b5c,
  0x00b5e, 0x00b5f, 0x00b62, 0x00b66, 0x00b78, 0x00b83, 0x00b84, 0x00b85, 0x00b8b, 0x00b8e,
  0x00b91, 0x00b92, 0x00b96, 0x00b99, 0x00b9b, 0x00b9c, 0x00b9d, 0x00b9e, 0x00ba0, 0x00ba3,
  0x00ba5, 0x00ba8, 0x00bab, 0x00bae, 0x00bba, 0x00bbf, 0x00bc0, 0x00bc1, 0x00bc3, 0x00bc6,
  0x00bc9, 0x00bca, 0x00bcd, 0x00bd0, 0x00bd1, 0x00be6, 0x00bfb, 0x00c01, 0x00c04, 0x00c05,
  0x00c0d, 0x00c0e, 0x00c11, 0x00c12, 0x00c29, 0x00c2a, 0x00c3a, 0x00c3d, 0x00c3e, 0x00c41,
  0x00c45, 0x00c58, 0x00c5b, 0x00c5c, 0x00c5e, 0x00c60, 0x00c62, 0x00c66, 0x00c70, 0x00c77,
  0x00c81, 0x00c82, 0x00c8d, 0x00c8e, 0x00c91, 0x00c92, 0x00ca9, 0x00caa, 0x00cb4, 0x00cb5,
  0x00cba, 0x00cbd, 0x00cbf, 0x00cc1, 0x00cc2, 0x00cc3, 0x00cc5, 0x00cdc, 0x00cdf, 0x00ce0,
  0x00ce2, 0x00ce6, 0x00cf0, 0x00cf1, 0x00cf4, 0x00d02, 0x00d0d, 0x00d0e, 0x00d11, 0x00d12,
  0x00d3b, 0x00d3d, 0x00d3e, 0x00d3f, 0x00d41, 0x00d46, 0x00d49, 0x00d4a, 0x00d4d, 0x00d4e,
  0x00d50, 0x00d54, 0x00d57, 0x00d58, 0x00d62, 0x00d66, 0x00d80, 0x00d82, 0x00d84, 0x00d85,
  0x00d97, 0x00d9a, 0x00db2, 0x00db3, 0x00dbc, 0x00dbd, 0x00dbe, 0x00dc0, 0x00dc7, 0x00dd0,
  0x00dd2, 0x00dd8, 0x00ddf, 0x00de6, 0x00df0, 0x00df2, 0x00df5, 0x00e01, 0x00e31, 0x00e32,
  0x00e34, 0x00e3f, 0x00e47, 0x00e4f, 0x00e5c, 0x00e81, 0x00e83, 0x00e84, 0x00e85, 0x00e86,
  0x00e8b, 0x00e8c, 0x00ea4, 0x00ea5, 0x00ea6, 0x00ea7, 0x00eb1, 0x00eb2, 0x00eb4, 0x00ebd,
  0x00ebe, 0x00ec0, 0x00ec5, 0x00ec6, 0x00ec7, 0x00ed0, 0x00eda, 0x00edc, 0x00ee0, 0x00f00,
  0x00f18, 0x00f1a, 0x00f35, 0x00f36, 0x00f37, 0x00f38, 0x00f39, 0x00f3a, 0x00f48, 0x00f49,
  0x00f6d, 0x00f7f, 0x00f80, 0x00f85, 0x00f86, 0x00f88, 0x00f8d, 0x00fbe, 0x00fc6, 0x00fc7,
  0x00fcd, 0x00fce, 0x00fdb, 0x01000, 0x0102d, 0x01031, 0x01032, 0x01038, 0x01039, 0x0103b,
  0x0103d, 0x0103f, 0x01058, 0x0105a, 0x0105e, 0x01061, 0x01071, 0x01075, 0x01082, 0x01083,
  0x01085, 0x01087, 0x0108d, 0x0108e, 0x0109d, 0x0109e, 0x010c6, 0x010c7, 0x010c8, 0x010cd,
  0x010ce, 0x010d0, 0x01249, 0x0124a, 0x0124e, 0x01250, 0x01257, 0x01258, 0x01259, 0x0125a,
  0x0125e, 0x01260, 0x01289, 0x0128a, 0x0128e, 0x01290, 0x012b1, 0x012b2, 0x012b6, 0x012b8,
  0x012bf, 0x012c0, 0x012c1, 0x012c2, 0x012c6, 0x012c8, 0x012d7, 0x012d8, 0x01311, 0x01312,
  0x01316, 0x01318, 0x0135b, 0x01360, 0x0137d, 0x01380, 0x0139a, 0x013a0, 0x013f6, 0x013f8,
  0x013fe, 0x01400, 0x01680, 0x01681, 0x0169d, 0x016a0, 0x016f9, 0x01700, 0x01712, 0x0171f,
  0x01732, 0x01735, 0x01737, 0x01740, 0x01752, 0x01760, 0x0176d, 0x0176e, 0x01771, 0x01780,
  0x017b4, 0x017b6, 0x017b7, 0x017be, 0x017c6, 0x017c7, 0x017c9, 0x017d4, 0x017dd, 0x017e0,
  0x017ea, 0x017f0, 0x017fa, 0x01800, 0x0180b, 0x01810, 0x0181a, 0x01820, 0x01879, 0x01880,
  0x01885, 0x01887, 0x018a9, 0x018aa, 0x018ab, 0x018b0, 0x018f6, 0x01900, 0x0191f, 0x01923,
  0x01927, 0x01929, 0x0192c, 0x01930, 0x01932, 0x01933, 0x01939, 0x01940, 0x01941, 0x01944,
  0x0196e, 0x01970, 0x01975, 0x01980, 0x019ac, 0x019b0, 0x019ca, 0x019d0, 0x019db, 0x019de,
  0x01a17, 0x01a19, 0x01a1b, 0x01a1e, 0x01a56, 0x01a57, 0x01a58, 0x01a61, 0x01a62, 0x01a63,
  0x01a65, 0x01a6d, 0x01a73, 0x01a80, 0x01a8a, 0x01a90, 0x01a9a, 0x01aa0, 0x01aae, 0x01b04,
  0x01b34, 0x01b3e, 0x01b42, 0x01b45, 0x01b4d, 0x01b4e, 0x01b6b, 0x01b74, 0x01b80, 0x01b82,
  0x01ba2, 0x01ba6, 0x01ba8, 0x01bae, 0x01be6, 0x01be7, 0x01be8, 0x01bea, 0x01bed, 0x01bee,
  0x01bef, 0x01bfc, 0x01c2c, 0x01c34, 0x01c36, 0x01c3b, 0x01c4a, 0x01c4d, 0x01c8b, 0x01c90,
  0x01cbb, 0x01cbd, 0x01cc8, 0x01cd3, 0x01cd4, 0x01ce1, 0x01ce2, 0x01ce9, 0x01ced, 0x01cee,
  0x01cf4, 0x01cf5, 0x01cf8, 0x01cfa, 0x01cfb, 0x01d00, 0x01dc0, 0x01e00, 0x01f16, 0x01f18,
  0x01f1e, 0x01f20, 0x01f46, 0x01f48, 0x01f4e, 0x01f50, 0x01f58, 0x01f59, 0x01f5a, 0x01f5b,
  0x01f5c, 0x01f5d, 0x01f5e, 0x01f5f, 0x01f7e, 0x01f80, 0x01fb5, 0x01fb6, 0x01fc5, 0x01fc6,
  0x01fd4, 0x01fd6, 0x01fdc, 0x01fdd, 0x01ff0, 0x01ff2, 0x01ff5, 0x01ff6, 0x01fff, 0x02010,
  0x02028, 0x02030, 0x0205f, 0x02070, 0x02072, 0x02074, 0x0208f, 0x02090, 0x0209d, 0x020a0,
  0x020c2, 0x02100, 0x0218c, 0x02190, 0x0242a, 0x02440, 0x0244b, 0x02460, 0x02b74, 0x02b76,
  0x02cef, 0x02cf2, 0x02cf4, 0x02cf9, 0x02d26, 0x02d27, 0x02d28, 0x02d2d, 0x02d2e, 0x02d30,
  0x02d68, 0x02d6f, 0x02d71, 0x02d80, 0x02d97, 0x02da0, 0x02da7, 0x02da8, 0x02daf, 0x02db0,
  0x02db7, 0x02db8, 0x02dbf, 0x02dc0, 0x02dc7, 0x02dc8, 0x02dcf, 0x02dd0, 0x02dd7, 0x02dd8,
  0x02ddf, 0x02e00, 0x02e5e, 0x02e80, 0x02e9a, 0x02e9b, 0x02ef4, 0x02f00, 0x02fd6, 0x02ff0,
  0x03000, 0x03001, 0x0302a, 0x03030, 0x03040, 0x03041, 0x03097, 0x0309b, 0x03100, 0x03105,
  0x03130, 0x03131, 0x0318f, 0x03190, 0x031e6, 0x031ef, 0x0321f, 0x03220, 0x0a48d, 0x0a490,
  0x0a4c7, 0x0a4d0, 0x0a62c, 0x0a640, 0x0a66f, 0x0a673, 0x0a674, 0x0a67e, 0x0a69e, 0x0a6a0,
  0x0a6f0, 0x0a6f2, 0x0a6f8, 0x0a700, 0x0a7dd, 0x0a7f1, 0x0a802, 0x0a803, 0x0a806, 0x0a807,
  0x0a80b, 0x0a80c, 0x0a825, 0x0a827, 0x0a82c, 0x0a830, 0x0a83a, 0x0a840, 0x0a878, 0x0a880,
  0x0a8c4, 0x0a8ce, 0x0a8da, 0x0a8f2, 0x0a8ff, 0x0a900, 0x0a926, 0x0a92e, 0x0a947, 0x0a952,
  0x0a953, 0x0a95f, 0x0a97d, 0x0a983, 0x0a9b3, 0x0a9b4, 0x0a9b6, 0x0a9ba, 0x0a9bc, 0x0a9be,
  0x0a9c0, 0x0a9c1, 0x0a9ce, 0x0a9cf, 0x0a9da, 0x0a9de, 0x0a9e5, 0x0a9e6, 0x0a9ff, 0x0aa00,
  0x0aa29, 0x0aa2f, 0x0aa31, 0x0aa33, 0x0aa35, 0x0aa40, 0x0aa43, 0x0aa44, 0x0aa4c, 0x0aa4d,
  0x0aa4e, 0x0aa50, 0x0aa5a, 0x0aa5c, 0x0aa7c, 0x0aa7d, 0x0aab0, 0x0aab1, 0x0aab2, 0x0aab5,
  0x0aab7, 0x0aab9, 0x0aabe, 0x0aac0, 0x0aac1, 0x0aac2, 0x0aac3, 0x0aadb, 0x0aaec, 0x0aaee,
  0x0aaf6, 0x0ab01, 0x0ab07, 0x0ab09, 0x0ab0f, 0x0ab11, 0x0ab17, 0x0ab20, 0x0ab27, 0x0ab28,
  0x0ab2f, 0x0ab30, 0x0ab6c, 0x0ab70, 0x0abe5, 0x0abe6, 0x0abe8, 0x0abe9, 0x0abed, 0x0abf0,
  0x0abfa, 0x0ac00, 0x0d7a4, 0x0d7b0, 0x0d7c7, 0x0d7cb, 0x0d7fc, 0x0f900, 0x0fa6e, 0x0fa70,
  0x0fada, 0x0fb00, 0x0fb07, 0x0fb13, 0x0fb18, 0x0fb1d, 0x0fb1e, 0x0fb1f, 0x0fb37, 0x0fb38,
  0x0fb3d, 0x0fb3e, 0x0fb3f, 0x0fb40, 0x0fb42, 0x0fb43, 0x0fb45, 0x0fb46, 0x0fdd0, 0x0fdf0,
  0x0fe00, 0x0fe10, 0x0fe1a, 0x0fe30, 0x0fe53, 0x0fe54, 0x0fe67, 0x0fe68, 0x0fe6c, 0x0fe70,
  0x0fe75, 0x0fe76, 0x0fefd, 0x0ff01, 0x0ff9e, 0x0ffa0, 0x0ffbf, 0x0ffc2, 0x0ffc8, 0x0ffca,
  0x0ffd0, 0x0ffd2, 0x0ffd8, 0x0ffda, 0x0ffdd, 0x0ffe0, 0x0ffe7, 0x0ffe8, 0x0ffef, 0x0fffc,
  0x0fffe, 0x10000, 0x1000c, 0x1000d, 0x10027, 0x10028, 0x1003b, 0x1003c, 0x1003e, 0x1003f,
  0x1004e, 0x10050, 0x1005e, 0x10080, 0x100fb, 0x10100, 0x10103, 0x10107, 0x10134, 0x10137,
  0x1018f, 0x10190, 0x1019d, 0x101a0, 0x101a1, 0x101d0, 0x101fd, 0x10280, 0x1029d, 0x102a0,
  0x102d1, 0x102e1, 0x102fc, 0x10300, 0x10324, 0x1032d, 0x1034b, 0x10350, 0x10376, 0x10380,
  0x1039e, 0x1039f, 0x103c4, 0x103c8, 0x103d6, 0x10400, 0x1049e, 0x104a0, 0x104aa, 0x104b0,
  0x104d4, 0x104d8, 0x104fc, 0x10500, 0x10528, 0x10530, 0x10564, 0x1056f, 0x1057b, 0x1057c,
  0x1058b, 0x1058c, 0x10593, 0x10594, 0x10596, 0x10597, 0x105a2, 0x105a3, 0x105b2, 0x105b3,
  0x105ba, 0x105bb, 0x105bd, 0x105c0, 0x105f4, 0x10600, 0x10737, 0x10740, 0x10756, 0x10760,
  0x10768, 0x10780, 0x10786, 0x10787, 0x107b1, 0x107b2, 0x107bb, 0x10800, 0x10806, 0x10808,
  0x10809, 0x1080a, 0x10836, 0x10837, 0x10839, 0x1083c, 0x1083d, 0x1083f, 0x10856, 0x10857,
  0x1089f, 0x108a7, 0x108b0, 0x108e0, 0x108f3, 0x108f4, 0x108f6, 0x108fb, 0x1091c, 0x1091f,
  0x1093a, 0x1093f, 0x1095a, 0x10980, 0x109b8, 0x109bc, 0x109d0, 0x109d2, 0x10a01, 0x10a10,
  0x10a14, 0x10a15, 0x10a18, 0x10a19, 0x10a36, 0x10a40, 0x10a49, 0x10a50, 0x10a59, 0x10a60,
  0x10aa0, 0x10ac0, 0x10ae5, 0x10aeb, 0x10af7, 0x10b00, 0x10b36, 0x10b39, 0x10b56, 0x10b58,
  0x10b73, 0x10b78, 0x10b92, 0x10b99, 0x10b9d, 0x10ba9, 0x10bb0, 0x10c00, 0x10c49, 0x10c80,
  0x10cb3, 0x10cc0, 0x10cf3, 0x10cfa, 0x10d24, 0x10d30, 0x10d3a, 0x10d40, 0x10d66, 0x10d6e,
  0x10d86, 0x10d8e, 0x10d90, 0x10e60, 0x10e7f, 0x10e80, 0x10eaa, 0x10ead, 0x10eae, 0x10eb0,
  0x10eb2, 0x10ec2, 0x10ec8, 0x10ed0, 0x10ed9, 0x10f00, 0x10f28, 0x10f30, 0x10f46, 0x10f51,
  0x10f5a, 0x10f70, 0x10f82, 0x10f86, 0x10f8a, 0x10fb0, 0x10fcc, 0x10fe0, 0x10ff7, 0x11000,
  0x11001, 0x11002, 0x11038, 0x11047, 0x1104e, 0x11052, 0x11070, 0x11071, 0x11073, 0x11075,
  0x11076, 0x11082, 0x110b3, 0x110b7, 0x110b9, 0x110bb, 0x110bd, 0x110be, 0x110c2, 0x110d0,
  0x110e9, 0x110f0, 0x110fa, 0x11103, 0x11127, 0x1112c, 0x1112d, 0x11136, 0x11148, 0x11150,
  0x11173, 0x11174, 0x11177, 0x11182, 0x111b6, 0x111bf, 0x111c0, 0x111c1, 0x111c9, 0x111cd,
  0x111cf, 0x111d0, 0x111e0, 0x111e1, 0x111f5, 0x11200, 0x11212, 0x11213, 0x1122f, 0x11232,
  0x11234, 0x11238, 0x1123e, 0x1123f, 0x11241, 0x11280, 0x11287, 0x11288, 0x11289, 0x1128a,
  0x1128e, 0x1128f, 0x1129e, 0x1129f, 0x112aa, 0x112b0, 0x112df, 0x112e0, 0x112e3, 0x112f0,
  0x112fa, 0x11302, 0x11304, 0x11305, 0x1130d, 0x1130f, 0x11311, 0x11313, 0x11329, 0x1132a,
  0x11331, 0x11332, 0x11334, 0x11335, 0x1133a, 0x1133d, 0x1133e, 0x1133f, 0x11340, 0x11341,
  0x11345, 0x11347, 0x11349, 0x1134b, 0x1134d, 0x11350, 0x11351, 0x1135d, 0x11364, 0x11380,
  0x1138a, 0x1138b, 0x1138c, 0x1138e, 0x1138f, 0x11390, 0x113b6, 0x113b7, 0x113b8, 0x113b9,
  0x113bb, 0x113ca, 0x113cb, 0x113cc, 0x113ce, 0x113d1, 0x113d2, 0x113d3, 0x113d6, 0x113d7,
  0x113d9, 0x11400, 0x11438, 0x11440, 0x11442, 0x11445, 0x11446, 0x11447, 0x1145c, 0x1145d,
  0x1145e, 0x1145f, 0x11462, 0x11480, 0x114b0, 0x114b1, 0x114b3, 0x114b9, 0x114ba, 0x114bb,
  0x114bd, 0x114be, 0x114bf, 0x114c1, 0x114c2, 0x114c4, 0x114c8, 0x114d0, 0x114da, 0x11580,
  0x115af, 0x115b0, 0x115b2, 0x115b8, 0x115bc, 0x115be, 0x115bf, 0x115c1, 0x115dc, 0x11600,
  0x11633, 0x1163b, 0x1163d, 0x1163e, 0x1163f, 0x11641, 0x11645, 0x11650, 0x1165a, 0x11660,
  0x1166d, 0x11680, 0x116ab, 0x116ac, 0x116ad, 0x116ae, 0x116b0, 0x116b8, 0x116ba, 0x116c0,
  0x116ca, 0x116d0, 0x116e4, 0x11700, 0x1171b, 0x1171e, 0x1171f, 0x11720, 0x11722, 0x11726,
  0x11727, 0x11730, 0x11747, 0x11800, 0x1182f, 0x11838, 0x11839, 0x1183b, 0x1183c, 0x118a0,
  0x118f3, 0x118ff, 0x11907, 0x11909, 0x1190a, 0x1190c, 0x11914, 0x11915, 0x11917, 0x11918,
  0x11930, 0x11931, 0x11936, 0x11937, 0x11939, 0x1193f, 0x11943, 0x11944, 0x11947, 0x11950,
  0x1195a, 0x119a0, 0x119a8, 0x119aa, 0x119d4, 0x119dc, 0x119e0, 0x119e1, 0x119e5, 0x11a00,
  0x11a01, 0x11a0b, 0x11a33, 0x11a39, 0x11a3b, 0x11a3f, 0x11a47, 0x11a50, 0x11a51, 0x11a57,
  0x11a59, 0x11a5c, 0x11a8a, 0x11a97, 0x11a98, 0x11a9a, 0x11aa3, 0x11ab0, 0x11af9, 0x11b00,
  0x11b0a, 0x11b61, 0x11b62, 0x11b65, 0x11b66, 0x11b67, 0x11b68, 0x11bc0, 0x11be2, 0x11bf0,
  0x11bfa, 0x11c00, 0x11c09, 0x11c0a, 0x11c30, 0x11c3e, 0x11c3f, 0x11c40, 0x11c46, 0x11c50,
  0x11c6d, 0x11c70, 0x11c90, 0x11ca9, 0x11caa, 0x11cb1, 0x11cb2, 0x11cb4, 0x11cb5, 0x11d00,
  0x11d07, 0x11d08, 0x11d0a, 0x11d0b, 0x11d31, 0x11d46, 0x11d47, 0x11d50, 0x11d5a, 0x11d60,
  0x11d66, 0x11d67, 0x11d69, 0x11d6a, 0x11d8f, 0x11d93, 0x11d95, 0x11d96, 0x11d97, 0x11d98,
  0x11d99, 0x11da0, 0x11daa, 0x11db0, 0x11ddc, 0x11de0, 0x11dea, 0x11ee0, 0x11ef3, 0x11ef5,
  0x11ef9, 0x11f02, 0x11f11, 0x11f12, 0x11f36, 0x11f3e, 0x11f40, 0x11f43, 0x11f5a, 0x11fb0,
  0x11fb1, 0x11fc0, 0x11ff2, 0x11fff, 0x1239a, 0x12400, 0x1246f, 0x12470, 0x12475, 0x12480,
  0x12544, 0x12f90, 0x12ff3, 0x13000, 0x13430, 0x13441, 0x13447, 0x13460, 0x143fb, 0x14400,
  0x14647, 0x16100, 0x1611e, 0x1612a, 0x1612d, 0x16130, 0x1613a, 0x16800, 0x16a39, 0x16a40,
  0x16a5f, 0x16a60, 0x16a6a, 0x16a6e, 0x16abf, 0x16ac0, 0x16aca, 0x16ad0, 0x16aee, 0x16af5,
  0x16af6, 0x16b00, 0x16b30, 0x16b37, 0x16b46, 0x16b50, 0x16b5a, 0x16b5b, 0x16b62, 0x16b63,
  0x16b78, 0x16b7d, 0x16b90, 0x16d40, 0x16d7a, 0x16e40, 0x16e9b, 0x16ea0, 0x16eb9, 0x16ebb,
  0x16ed4, 0x16f00, 0x16f4b, 0x16f50, 0x16f88, 0x16f93, 0x16fa0, 0x16fe0, 0x16fe4, 0x16ff2,
  0x16ff7, 0x17000, 0x18cd6, 0x18cff, 0x18d1f, 0x18d80, 0x18df3, 0x1aff0, 0x1aff4, 0x1aff5,
  0x1affc, 0x1affd, 0x1afff, 0x1b000, 0x1b123, 0x1b132, 0x1b133, 0x1b150, 0x1b153, 0x1b155,
  0x1b156, 0x1b164, 0x1b168, 0x1b170, 0x1b2fc, 0x1bc00, 0x1bc6b, 0x1bc70, 0x1bc7d, 0x1bc80,
  0x1bc89, 0x1bc90, 0x1bc9a, 0x1bc9c, 0x1bc9d, 0x1bc9f, 0x1bca0, 0x1cc00, 0x1ccfd, 0x1cd00,
  0x1ceb4, 0x1ceba, 0x1ced1, 0x1cee0, 0x1cef1, 0x1cf50, 0x1cfc4, 0x1d000, 0x1d0f6, 0x1d100,
  0x1d127, 0x1d129, 0x1d165, 0x1d16a, 0x1d16d, 0x1d183, 0x1d185, 0x1d18c, 0x1d1aa, 0x1d1ae,
  0x1d1eb, 0x1d200, 0x1d242, 0x1d245, 0x1d246, 0x1d2c0, 0x1d2d4, 0x1d2e0, 0x1d2f4, 0x1d300,
  0x1d357, 0x1d360, 0x1d379, 0x1d400, 0x1d455, 0x1d456, 0x1d49d, 0x1d49e, 0x1d4a0, 0x1d4a2,
  0x1d4a3, 0x1d4a5, 0x1d4a7, 0x1d4a9, 0x1d4ad, 0x1d4ae, 0x1d4ba, 0x1d4bb, 0x1d4bc, 0x1d4bd,
  0x1d4c4, 0x1d4c5, 0x1d506, 0x1d507, 0x1d50b, 0x1d50d, 0x1d515, 0x1d516, 0x1d51d, 0x1d51e,
  0x1d53a, 0x1d53b, 0x1d53f, 0x1d540, 0x1d545, 0x1d546, 0x1d547, 0x1d54a, 0x1d551, 0x1d552,
  0x1d6a6, 0x1d6a8, 0x1d7cc, 0x1d7ce, 0x1da00, 0x1da37, 0x1da3b, 0x1da6d, 0x1da75, 0x1da76,
  0x1da84, 0x1da85, 0x1da8c, 0x1df00, 0x1df1f, 0x1df25, 0x1df2b, 0x1e030, 0x1e06e, 0x1e100,
  0x1e12d, 0x1e137, 0x1e13e, 0x1e140, 0x1e14a, 0x1e14e, 0x1e150, 0x1e290, 0x1e2ae, 0x1e2c0,
  0x1e2ec, 0x1e2f0, 0x1e2fa, 0x1e2ff, 0x1e300, 0x1e4d0, 0x1e4ec, 0x1e4f0, 0x1e4fa, 0x1e5d0,
  0x1e5ee, 0x1e5f0, 0x1e5fb, 0x1e5ff, 0x1e600, 0x1e6c0, 0x1e6df, 0x1e6e0, 0x1e6e3, 0x1e6e4,
  0x1e6e6, 0x1e6e7, 0x1e6ee, 0x1e6f0, 0x1e6f5, 0x1e6fe, 0x1e700, 0x1e7e0, 0x1e7e7, 0x1e7e8,
  0x1e7ec, 0x1e7ed, 0x1e7ef, 0x1e7f0, 0x1e7ff, 0x1e800, 0x1e8c5, 0x1e8c7, 0x1e8d0, 0x1e900,
  0x1e944, 0x1e94b, 0x1e94c, 0x1e950, 0x1e95a, 0x1e95e, 0x1e960, 0x1ec71, 0x1ecb5, 0x1ed01,
  0x1ed3e, 0x1ee00, 0x1ee04, 0x1ee05, 0x1ee20, 0x1ee21, 0x1ee23, 0x1ee24, 0x1ee25, 0x1ee27,
  0x1ee28, 0x1ee29, 0x1ee33, 0x1ee34, 0x1ee38, 0x1ee39, 0x1ee3a, 0x1ee3b, 0x1ee3c, 0x1ee42,
  0x1ee43, 0x1ee47, 0x1ee48, 0x1ee49, 0x1ee4a, 0x1ee4b, 0x1ee4c, 0x1ee4d, 0x1ee50, 0x1ee51,
  0x1ee53, 0x1ee54, 0x1ee55, 0x1ee57, 0x1ee58, 0x1ee59, 0x1ee5a, 0x1ee5b, 0x1ee5c, 0x1ee5d,
  0x1ee5e, 0x1ee5f, 0x1ee60, 0x1ee61, 0x1ee63, 0x1ee64, 0x1ee65, 0x1ee67, 0x1ee6b, 0x1ee6c,
  0x1ee73, 0x1ee74, 0x1ee78, 0x1ee79, 0x1ee7d, 0x1ee7e, 0x1ee7f, 0x1ee80, 0x1ee8a, 0x1ee8b,
  0x1ee9c, 0x1eea1, 0x1eea4, 0x1eea5, 0x1eeaa, 0x1eeab, 0x1eebc, 0x1eef0, 0x1eef2, 0x1f000,
  0x1f02c, 0x1f030, 0x1f094, 0x1f0a0, 0x1f0af, 0x1f0b1, 0x1f0c0, 0x1f0c1, 0x1f0d0, 0x1f0d1,
  0x1f0f6, 0x1f100, 0x1f1ae, 0x1f1e6, 0x1f203, 0x1f210, 0x1f23c, 0x1f240, 0x1f249, 0x1f250,
  0x1f252, 0x1f260, 0x1f266, 0x1f300, 0x1f6d9, 0x1f6dc, 0x1f6ed, 0x1f6f0, 0x1f6fd, 0x1f700,
  0x1f7da, 0x1f7e0, 0x1f7ec, 0x1f7f0, 0x1f7f1, 0x1f800, 0x1f80c, 0x1f810, 0x1f848, 0x1f850,
  0x1f85a, 0x1f860, 0x1f888, 0x1f890, 0x1f8ae, 0x1f8b0, 0x1f8bc, 0x1f8c0, 0x1f8c2, 0x1f8d0,
  0x1f8d9, 0x1f900, 0x1fa58, 0x1fa60, 0x1fa6e, 0x1fa70, 0x1fa7d, 0x1fa80, 0x1fa8b, 0x1fa8e,
  0x1fac7, 0x1fac8, 0x1fac9, 0x1facd, 0x1fadd, 0x1fadf, 0x1faeb, 0x1faef, 0x1faf9, 0x1fb00,
  0x1fb93, 0x1fb94, 0x1fbfb, 0x20000, 0x2a6e0, 0x2a700, 0x2b81e, 0x2b820, 0x2ceae, 0x2ceb0,
  0x2ebe1, 0x2ebf0, 0x2ee5e, 0x2f800, 0x2fa1e, 0x30000, 0x3134b, 0x31350, 0x3347a, 0x110000]

end ProcBook.Text
