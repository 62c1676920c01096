/-
ProcBook/Text/WordTable.lean

Word characters beyond ASCII, as the increasing list of code points at which the class begins or
ends.  The class is that of the Unicode properties Alphabetic, Mark, Decimal_Number,
Connector_Punctuation and Join_Control together.
-/

namespace ProcBook.Text

/-- Code points from 0x80 on at which the class of word characters begins (even places) or ends (odd places). -/
def wordFlips : List Nat := [
  0x000aa, 0x000ab, 0x000b5, 0x000b6, 0x000ba, 0x000bb, 0x000c0, 0x000d7, 0x000d8, 0x000f7,
  0x000f8, 0x002c2, 0x002c6, 0x002d2, 0x002e0, 0x002e5, 0x002ec, 0x002ed, 0x002ee, 0x002ef,
  0x00300, 0x00375, 0x00376, 0x00378, 0x0037a, 0x0037e, 0x0037f, 0x00380, 0x00386, 0x00387,
  0x00388, 0x0038b, 0x0038c, 0x0038d, 0x0038e, 0x003a2, 0x003a3, 0x003f6, 0x003f7, 0x00482,
  0x00483, 0x00530, 0x00531, 0x00557, 0x00559, 0x0055a, 0x00560, 0x00589, 0x00591, 0x005be,
  0x005bf, 0x005c0, 0x005c1, 0x005c3, 0x005c4, 0x005c6, 0x005c7, 0x005c8, 0x005d0, 0x005eb,
  0x005ef, 0x005f3, 0x00610, 0x0061b, 0x00620, 0x0066a, 0x0066e, 0x006d4, 0x006d5, 0x006dd,
  0x006df, 0x006e9, 0x006ea, 0x006fd, 0x006ff, 0x00700, 0x00710, 0x0074b, 0x0074d, 0x007b2,
  0x007c0, 0x007f6, 0x007fa, 0x007fb, 0x007fd, 0x007fe, 0x00800, 0x0082e, 0x00840, 0x0085c,
  0x00860, 0x0086b, 0x00870, 0x00888, 0x00889, 0x00890, 0x00897, 0x008e2, 0x008e3, 0x00964,
  0x00966, 0x00970, 0x00971, 0x00984, 0x00985, 0x0098d, 0x0098f, 0x00991, 0x00993, 0x009a9,
  0x009aa, 0x009b1, 0x009b2, 0x009b3, 0x009b6, 0x009ba, 0x009bc, 0x009c5, 0x009c7, 0x009c9,
  0x009cb, 0x009cf, 0x009d7, 0x009d8, 0x009dc, 0x009de, 0x009df, 0x009e4, 0x009e6, 0x009f2,
  0x009fc, 0x009fd, 0x009fe, 0x009ff, 0x00a01, 0x00a04, 0x00a05, 0x00a0b, 0x00a0f, 0x00a11,
  0x00a13, 0x00a29, 0x00a2a, 0x00a31, 0x00a32, 0x00a34, 0x00a35, 0x00a37, 0x00a38, 0x00a3a,
  0x00a3c, 0x00a3d, 0x00a3e, 0x00a43, 0x00a47, 0x00a49, 0x00a4b, 0x00a4e, 0x00a51, 0x00a52,
  0x00a59, 0x00a5d, 0x00a5e, 0x00a5f, 0x00a66, 0x00a76, 0x00a81, 0x00a84, 0x00a85, 0x00a8e,
  0x00a8f, 0x00a92, 0x00a93, 0x00aa9, 0x00aaa, 0x00ab1, 0x00ab2, 0x00ab4, 0x00ab5, 0x00aba,
  0x00abc, 0x00ac6, 0x00ac7, 0x00aca, 0x00acb, 0x00ace, 0x00ad0, 0x00ad1, 0x00ae0, 0x00ae4,
  0x00ae6, 0x00af0, 0x00af9, 0x00b00, 0x00b01, 0x00b04, 0x00b05, 0x00b0d, 0x00b0f, 0x00b11,
  0x00b13, 0x00b29, 0x00b2a, 0x00b31, 0x00b32, 0x00b34, 0x00b35, 0x00b3a, 0x00b3c, 0x00b45,
  0x00b47, 0x00b49, 0x00b4b, 0x00b4e, 0x00b55, 0x00b58, 0x00b5c, 0x00b5e, 0x00b5f, 0x00b64,
  0x00b66, 0x00b70, 0x00b71, 0x00b72, 0x00b82, 0x00b84, 0x00b85, 0x00b8b, 0x00b8e, 0x00b91,
  0x00b92, 0x00b96, 0x00b99, 0x00b9b, 0x00b9c, 0x00b9d, 0x00b9e, 0x00ba0, 0x00ba3, 0x00ba5,
  0x00ba8, 0x00bab, 0x00bae, 0x00bba, 0x00bbe, 0x00bc3, 0x00bc6, 0x00bc9, 0x00bca, 0x00bce,
  0x00bd0, 0x00bd1, 0x00bd7, 0x00bd8, 0x00be6, 0x00bf0, 0x00c00, 0x00c0d, 0x00c0e, 0x00c11,
  0x00c12, 0x00c29, 0x00c2a, 0x00c3a, 0x00c3c, 0x00c45, 0x00c46, 0x00c49, 0x00c4a, 0x00c4e,
  0x00c55, 0x00c57, 0x00c58, 0x00c5b, 0x00c5c, 0x00c5e, 0x00c60, 0x00c64, 0x00c66, 0x00c70,
  0x00c80, 0x00c84, 0x00c85, 0x00c8d, 0x00c8e, 0x00c91, 0x00c92, 0x00ca9, 0x00caa, 0x00cb4,
  0x00cb5, 0x00cba, 0x00cbc, 0x00cc5, 0x00cc6, 0x00cc9, 0x00cca, 0x00cce, 0x00cd5, 0x00cd7,
  0x00cdc, 0x00cdf, 0x00ce0, 0x00ce4, 0x00ce6, 0x00cf0, 0x00cf1, 0x00cf4, 0x00d00, 0x00d0d,
  0x00d0e, 0x00d11, 0x00d12, 0x00d45, 0x00d46, 0x00d49, 0x00d4a, 0x00d4f, 0x00d54, 0x00d58,
  0x00d5f, 0x00d64, 0x00d66, 0x00d70, 0x00d7a, 0x00d80, 0x00d81, 0x00d84, 0x00d85, 0x00d97,
  0x00d9a, 0x00db2, 0x00db3, 0x00dbc, 0x00dbd, 0x00dbe, 0x00dc0, 0x00dc7, 0x00dca, 0x00dcb,
  0x00dcf, 0x00dd5, 0x00dd6, 0x00dd7, 0x00dd8, 0x00de0, 0x00de6, 0x00df0, 0x00df2, 0x00df4,
  0x00e01, 0x00e3b, 0x00e40, 0x00e4f, 0x00e50, 0x00e5a, 0x00e81, 0x00e83, 0x00e84, 0x00e85,
  0x00e86, 0x00e8b, 0x00e8c, 0x00ea4, 0x00ea5, 0x00ea6, 0x00ea7, 0x00ebe, 0x00ec0, 0x00ec5,
  0x00ec6, 0x00ec7, 0x00ec8, 0x00ecf, 0x00ed0, 0x00eda, 0x00edc, 0x00ee0, 0x00f00, 0x00f01,
  0x00f18, 0x00f1a, 0x00f20, 0x00f2a, 0x00f35, 0x00f36, 0x00f37, 0x00f38, 0x00f39, 0x00f3a,
  0x00f3e, 0x00f48, 0x00f49, 0x00f6d, 0x00f71, 0x00f85, 0x00f86, 0x00f98, 0x00f99, 0x00fbd,
  0x00fc6, 0x00fc7, 0x01000, 0x0104a, 0x01050, 0x0109e, 0x010a0, 0x010c6, 0x010c7, 0x010c8,
  0x010cd, 0x010ce, 0x010d0, 0x010fb, 0x010fc, 0x01249, 0x0124a, 0x0124e, 0x01250, 0x01257,
  0x01258, 0x01259, 0x0125a, 0x0125e, 0x01260, 0x01289, 0x0128a, 0x0128e, 0x01290, 0x012b1,
  0x012b2, 0x012b6, 0x012b8, 0x012bf, 0x012c0, 0x012c1, 0x012c2, 0x012c6, 0x012c8, 0x012d7,
  0x012d8, 0x01311, 0x01312, 0x01316, 0x01318, 0x0135b, 0x0135d, 0x01360, 0x01380, 0x01390,
  0x013a0, 0x013f6, 0x013f8, 0x013fe, 0x01401, 0x0166d, 0x0166f, 0x01680, 0x01681, 0x0169b,
  0x016a0, 0x016eb, 0x016ee, 0x016f9, 0x01700, 0x01716, 0x0171f, 0x01735, 0x01740, 0x01754,
  0x01760, 0x0176d, 0x0176e, 0x01771, 0x01772, 0x01774, 0x01780, 0x017d4, 0x017d7, 0x017d8,
  0x017dc, 0x017de, 0x017e0, 0x017ea, 0x0180b, 0x0180e, 0x0180f, 0x0181a, 0x01820, 0x01879,
  0x01880, 0x018ab, 0x018b0, 0x018f6, 0x01900, 0x0191f, 0x01920, 0x0192c, 0x01930, 0x0193c,
  0x01946, 0x0196e, 0x01970, 0x01975, 0x01980, 0x019ac, 0x019b0, 0x019ca, 0x019d0, 0x019da,
  0x01a00, 0x01a1c, 0x01a20, 0x01a5f, 0x01a60, 0x01a7d, 0x01a7f, 0x01a8a, 0x01a90, 0x01a9a,
  0x01aa7, 0x01aa8, 0x01ab0, 0x01ade, 0x01ae0, 0x01aec, 0x01b00, 0x01b4d, 0x01b50, 0x01b5a,
  0x01b6b, 0x01b74, 0x01b80, 0x01bf4, 0x01c00, 0x01c38, 0x01c40, 0x01c4a, 0x01c4d, 0x01c7e,
  0x01c80, 0x01c8b, 0x01c90, 0x01cbb, 0x01cbd, 0x01cc0, 0x01cd0, 0x01cd3, 0x01cd4, 0x01cfb,
  0x01d00, 0x01f16, 0x01f18, 0x01f1e, 0x01f20, 0x01f46, 0x01f48, 0x01f4e, 0x01f50, 0x01f58,
  0x01f59, 0x01f5a, 0x01f5b, 0x01f5c, 0x01f5d, 0x01f5e, 0x01f5f, 0x01f7e, 0x01f80, 0x01fb5,
  0x01fb6, 0x01fbd, 0x01fbe, 0x01fbf, 0x01fc2, 0x01fc5, 0x01fc6, 0x01fcd, 0x01fd0, 0x01fd4,
  0x01fd6, 0x01fdc, 0x01fe0, 0x01fed, 0x01ff2, 0x01ff5, 0x01ff6, 0x01ffd, 0x0200c, 0x0200e,
  0x0203f, 0x02041, 0x02054, 0x02055, 0x02071, 0x02072, 0x0207f, 0x02080, 0x02090, 0x0209d,
  0x020d0, 0x020f1, 0x02102, 0x02103, 0x02107, 0x02108, 0x0210a, 0x02114, 0x02115, 0x02116,
  0x02119, 0x0211e, 0x02124, 0x02125, 0x02126, 0x02127, 0x02128, 0x02129, 0x0212a, 0x0212e,
  0x0212f, 0x0213a, 0x0213c, 0x02140, 0x02145, 0x0214a, 0x0214e, 0x0214f, 0x02160, 0x02189,
  0x024b6, 0x024ea, 0x02c00, 0x02ce5, 0x02ceb, 0x02cf4, 0x02d00, 0x02d26, 0x02d27, 0x02d28,
  0x02d2d, 0x02d2e, 0x02d30, 0x02d68, 0x02d6f, 0x02d70, 0x02d7f, 0x02d97, 0x02da0, 0x02da7,
  0x02da8, 0x02daf, 0x02db0, 0x02db7, 0x02db8, 0x02dbf, 0x02dc0, 0x02dc7, 0x02dc8, 0x02dcf,
  0x02dd0, 0x02dd7, 0x02dd8, 0x02ddf, 0x02de0, 0x02e00, 0x02e2f, 0x02e30, 0x03005, 0x03008,
  0x03021, 0x03030, 0x03031, 0x03036, 0x03038, 0x0303d, 0x03041, 0x03097, 0x03099, 0x0309b,
  0x0309d, 0x030a0, 0x030a1, 0x030fb, 0x030fc, 0x03100, 0x03105, 0x03130, 0x03131, 0x0318f,
  0x031a0, 0x031c0, 0x031f0, 0x03200, 0x03400, 0x04dc0, 0x04e00, 0x0a48d, 0x0a4d0, 0x0a4fe,
  0x0a500, 0x0a60d, 0x0a610, 0x0a62c, 0x0a640, 0x0a673, 0x0a674, 0x0a67e, 0x0a67f, 0x0a6f2,
  0x0a717, 0x0a720, 0x0a722, 0x0a789, 0x0a78b, 0x0a7dd, 0x0a7f1, 0x0a828, 0x0a82c, 0x0a82d,
  0x0a840, 0x0a874, 0x0a880, 0x0a8c6, 0x0a8d0, 0x0a8da, 0x0a8e0, 0x0a8f8, 0x0a8fb, 0x0a8fc,
  0x0a8fd, 0x0a92e, 0x0a930, 0x0a954, 0x0a960, 0x0a97d, 0x0a980, 0x0a9c1, 0x0a9cf, 0x0a9da,
  0x0a9e0, 0x0a9ff, 0x0aa00, 0x0aa37, 0x0aa40, 0x0aa4e, 0x0aa50, 0x0aa5a, 0x0aa60, 0x0aa77,
  0x0aa7a, 0x0aac3, 0x0aadb, 0x0aade, 0x0aae0, 0x0aaf0, 0x0aaf2, 0x0aaf7, 0x0ab01, 0x0ab07,
  0x0ab09, 0x0ab0f, 0x0ab11, 0x0ab17, 0x0ab20, 0x0ab27, 0x0ab28, 0x0ab2f, 0x0ab30, 0x0ab5b,
  0x0ab5c, 0x0ab6a, 0x0ab70, 0x0abeb, 0x0abec, 0x0abee, 0x0abf0, 0x0abfa, 0x0ac00, 0x0d7a4,
  0x0d7b0, 0x0d7c7, 0x0d7cb, 0x0d7fc, 0x0f900, 0x0fa6e, 0x0fa70, 0x0fada, 0x0fb00, 0x0fb07,
  0x0fb13, 0x0fb18, 0x0fb1d, 0x0fb29, 0x0fb2a, 0x0fb37, 0x0fb38, 0x0fb3d, 0x0fb3e, 0x0fb3f,
  0x0fb40, 0x0fb42, 0x0fb43, 0x0fb45, 0x0fb46, 0x0fbb2, 0x0fbd3, 0x0fd3e, 0x0fd50, 0x0fd90,
  0x0fd92, 0x0fdc8, 0x0fdf0, 0x0fdfc, 0x0fe00, 0x0fe10, 0x0fe20, 0x0fe30, 0x0fe33, 0x0fe35,
  0x0fe4d, 0x0fe50, 0x0fe70, 0x0fe75, 0x0fe76, 0x0fefd, 0x0ff10, 0x0ff1a, 0x0ff21, 0x0ff3b,
  0x0ff3f, 0x0ff40, 0x0ff41, 0x0ff5b, 0x0ff66, 0x0ffbf, 0x0ffc2, 0x0ffc8, 0x0ffca, 0x0ffd0,
  0x0ffd2, 0x0ffd8, 0x0ffda, 0x0ffdd, 0x10000, 0x1000c, 0x1000d, 0x10027, 0x10028, 0x1003b,
  0x1003c, 0x1003e, 0x1003f, 0x1004e, 0x10050, 0x1005e, 0x10080, 0x100fb, 0x10140, 0x10175,
  0x101fd, 0x101fe, 0x10280, 0x1029d, 0x102a0, 0x102d1, 0x102e0, 0x102e1, 0x10300, 0x10320,
  0x1032d, 0x1034b, 0x10350, 0x1037b, 0x10380, 0x1039e, 0x103a0, 0x103c4, 0x103c8, 0x103d0,
  0x103d1, 0x103d6, 0x10400, 0x1049e, 0x104a0, 0x104aa, 0x104b0, 0x104d4, 0x104d8, 0x104fc,
  0x10500, 0x10528, 0x10530, 0x10564, 0x10570, 0x1057b, 0x1057c, 0x1058b, 0x1058c, 0x10593,
  0x10594, 0x10596, 0x10597, 0x105a2, 0x105a3, 0x105b2, 0x105b3, 0x105ba, 0x105bb, 0x105bd,
  0x105c0, 0x105f4, 0x10600, 0x10737, 0x10740, 0x10756, 0x10760, 0x10768, 0x10780, 0x10786,
  0x10787, 0x107b1, 0x107b2, 0x107bb, 0x10800, 0x10806, 0x10808, 0x10809, 0x1080a, 0x10836,
  0x10837, 0x10839, 0x1083c, 0x1083d, 0x1083f, 0x10856, 0x10860, 0x10877, 0x10880, 0x1089f,
  0x108e0, 0x108f3, 0x108f4, 0x108f6, 0x10900, 0x10916, 0x10920, 0x1093a, 0x10940, 0x1095a,
  0x10980, 0x109b8, 0x109be, 0x109c0, 0x10a00, 0x10a04, 0x10a05, 0x10a07, 0x10a0c, 0x10a14,
  0x10a15, 0x10a18, 0x10a19, 0x10a36, 0x10a38, 0x10a3b, 0x10a3f, 0x10a40, 0x10a60, 0x10a7d,
  0x10a80, 0x10a9d, 0x10ac0, 0x10ac8, 0x10ac9, 0x10ae7, 0x10b00, 0x10b36, 0x10b40, 0x10b56,
  0x10b60, 0x10b73, 0x10b80, 0x10b92, 0x10c00, 0x10c49, 0x10c80, 0x10cb3, 0x10cc0, 0x10cf3,
  0x10d00, 0x10d28, 0x10d30, 0x10d3a, 0x10d40, 0x10d66, 0x10d69, 0x10d6e, 0x10d6f, 0x10d86,
  0x10e80, 0x10eaa, 0x10eab, 0x10ead, 0x10eb0, 0x10eb2, 0x10ec2, 0x10ec8, 0x10efa, 0x10f1d,
  0x10f27, 0x10f28, 0x10f30, 0x10f51, 0x10f70, 0x10f86, 0x10fb0, 0x10fc5, 0x10fe0, 0x10ff7,
  0x11000, 0x11047, 0x11066, 0x11076, 0x1107f, 0x110bb, 0x110c2, 0x110c3, 0x110d0, 0x110e9,
  0x110f0, 0x110fa, 0x11100, 0x11135, 0x11136, 0x11140, 0x11144, 0x11148, 0x11150, 0x11174,
  0x11176, 0x11177, 0x11180, 0x111c5, 0x111c9, 0x111cd, 0x111ce, 0x111db, 0x111dc, 0x111dd,
  0x11200, 0x11212, 0x11213, 0x11238, 0x1123e, 0x11242, 0x11280, 0x11287, 0x11288, 0x11289,
  0x1128a, 0x1128e, 0x1128f, 0x1129e, 0x1129f, 0x112a9, 0x112b0, 0x112eb, 0x112f0, 0x112fa,
  0x11300, 0x11304, 0x11305, 0x1130d, 0x1130f, 0x11311, 0x11313, 0x11329, 0x1132a, 0x11331,
  0x11332, 0x11334, 0x11335, 0x1133a, 0x1133b, 0x11345, 0x11347, 0x11349, 0x1134b, 0x1134e,
  0x11350, 0x11351, 0x11357, 0x11358, 0x1135d, 0x11364, 0x11366, 0x1136d, 0x11370, 0x11375,
  0x11380, 0x1138a, 0x1138b, 0x1138c, 0x1138e, 0x1138f, 0x11390, 0x113b6, 0x113b7, 0x113c1,
  0x113c2, 0x113c3, 0x113c5, 0x113c6, 0x113c7, 0x113cb, 0x113cc, 0x113d4, 0x113e1, 0x113e3,
  0x11400, 0x1144b, 0x11450, 0x1145a, 0x1145e, 0x11462, 0x11480, 0x114c6, 0x114c7, 0x114c8,
  0x114d0, 0x114da, 0x11580, 0x115b6, 0x115b8, 0x115c1, 0x115d8, 0x115de, 0x11600, 0x11641,
  0x11644, 0x11645, 0x11650, 0x1165a, 0x11680, 0x116b9, 0x116c0, 0x116ca, 0x116d0, 0x116e4,
  0x11700, 0x1171b, 0x1171d, 0x1172c, 0x11730, 0x1173a, 0x11740, 0x11747, 0x11800, 0x1183b,
  0x118a0, 0x118ea, 0x118ff, 0x11907, 0x11909, 0x1190a, 0x1190c, 0x11914, 0x11915, 0x11917,
  0x11918, 0x11936, 0x11937, 0x11939, 0x1193b, 0x11944, 0x11950, 0x1195a, 0x119a0, 0x119a8,
  0x119aa, 0x119d8, 0x119da, 0x119e2, 0x119e3, 0x119e5, 0x11a00, 0x11a3f, 0x11a47, 0x11a48,
  0x11a50, 0x11a9a, 0x11a9d, 0x11a9e, 0x11ab0, 0x11af9, 0x11b60, 0x11b68, 0x11bc0, 0x11be1,
  0x11bf0, 0x11bfa, 0x11c00, 0x11c09, 0x11c0a, 0x11c37, 0x11c38, 0x11c41, 0x11c50, 0x11c5a,
  0x11c72, 0x11c90, 0x11c92, 0x11ca8, 0x11ca9, 0x11cb7, 0x11d00, 0x11d07, 0x11d08, 0x11d0a,
  0x11d0b, 0x11d37, 0x11d3a, 0x11d3b, 0x11d3c, 0x11d3e, 0x11d3f, 0x11d48, 0x11d50, 0x11d5a,
  0x11d60, 0x11d66, 0x11d67, 0x11d69, 0x11d6a, 0x11d8f, 0x11d90, 0x11d92, 0x11d93, 0x11d99,
  0x11da0, 0x11daa, 0x11db0, 0x11ddc, 0x11de0, 0x11dea, 0x11ee0, 0x11ef7, 0x11f00, 0x11f11,
  0x11f12, 0x11f3b, 0x11f3e, 0x11f43, 0x11f50, 0x11f5b, 0x11fb0, 0x11fb1, 0x12000, 0x1239a,
  0x12400, 0x1246f, 0x12480, 0x12544, 0x12f90, 0x12ff1, 0x13000, 0x13430, 0x13440, 0x13456,
  0x13460, 0x143fb, 0x14400, 0x14647, 0x16100, 0x1613a, 0x16800, 0x16a39, 0x16a40, 0x16a5f,
  0x16a60, 0x16a6a, 0x16a70, 0x16abf, 0x16ac0, 0x16aca, 0x16ad0, 0x16aee, 0x16af0, 0x16af5,
  0x16b00, 0x16b37, 0x16b40, 0x16b44, 0x16b50, 0x16b5a, 0x16b63, 0x16b78, 0x16b7d, 0x16b90,
  0x16d40, 0x16d6d, 0x16d70, 0x16d7a, 0x16e40, 0x16e80, 0x16ea0, 0x16eb9, 0x16ebb, 0x16ed4,
  0x16f00, 0x16f4b, 0x16f4f, 0x16f88, 0x16f8f, 0x16fa0, 0x16fe0, 0x16fe2, 0x16fe3, 0x16fe5,
  0x16ff0, 0x16ff7, 0x17000, 0x18cd6, 0x18cff, 0x18d1f, 0x18d80, 0x18df3, 0x1aff0, 0x1aff4,
  0x1aff5, 0x1affc, 0x1affd, 0x1afff, 0x1b000, 0x1b123, 0x1b132, 0x1b133, 0x1b150, 0x1b153,
  0x1b155, 0x1b156, 0x1b164, 0x1b168, 0x1b170, 0x1b2fc, 0x1bc00, 0x1bc6b, 0x1bc70, 0x1bc7d,
  0x1bc80, 0x1bc89, 0x1bc90, 0x1bc9a, 0x1bc9d, 0x1bc9f, 0x1ccf0, 0x1ccfa, 0x1cf00, 0x1cf2e,
  0x1cf30, 0x1cf47, 0x1d165, 0x1d16a, 0x1d16d, 0x1d173, 0x1d17b, 0x1d183, 0x1d185, 0x1d18c,
  0x1d1aa, 0x1d1ae, 0x1d242, 0x1d245, 0x1d400, 0x1d455, 0x1d456, 0x1d49d, 0x1d49e, 0x1d4a0,
  0x1d4a2, 0x1d4a3, 0x1d4a5, 0x1d4a7, 0x1d4a9, 0x1d4ad, 0x1d4ae, 0x1d4ba, 0x1d4bb, 0x1d4bc,
  0x1d4bd, 0x1d4c4, 0x1d4c5, 0x1d506, 0x1d507, 0x1d50b, 0x1d50d, 0x1d515, 0x1d516, 0x1d51d,
  0x1d51e, 0x1d53a, 0x1d53b, 0x1d53f, 0x1d540, 0x1d545, 0x1d546, 0x1d547, 0x1d54a, 0x1d551,
  0x1d552, 0x1d6a6, 0x1d6a8, 0x1d6c1, 0x1d6c2, 0x1d6db, 0x1d6dc, 0x1d6fb, 0x1d6fc, 0x1d715,
  0x1d716, 0x1d735, 0x1d736, 0x1d74f, 0x1d750, 0x1d76f, 0x1d770, 0x1d789, 0x1d78a, 0x1d7a9,
  0x1d7aa, 0x1d7c3, 0x1d7c4, 0x1d7cc, 0x1d7ce, 0x1d800, 0x1da00, 0x1da37, 0x1da3b, 0x1da6d,
  0x1da75, 0x1da76, 0x1da84, 0x1da85, 0x1da9b, 0x1daa0, 0x1daa1, 0x1dab0, 0x1df00, 0x1df1f,
  0x1df25, 0x1df2b, 0x1e000, 0x1e007, 0x1e008, 0x1e019, 0x1e01b, 0x1e022, 0x1e023, 0x1e025,
  0x1e026, 0x1e02b, 0x1e030, 0x1e06e, 0x1e08f, 0x1e090, 0x1e100, 0x1e12d, 0x1e130, 0x1e13e,
  0x1e140, 0x1e14a, 0x1e14e, 0x1e14f, 0x1e290, 0x1e2af, 0x1e2c0, 0x1e2fa, 0x1e4d0, 0x1e4fa,
  0x1e5d0, 0x1e5fb, 0x1e6c0, 0x1e6df, 0x1e6e0, 0x1e6f6, 0x1e6fe, 0x1e700, 0x1e7e0, 0x1e7e7,
  0x1e7e8, 0x1e7ec, 0x1e7ed, 0x1e7ef, 0x1e7f0, 0x1e7ff, 0x1e800, 0x1e8c5, 0x1e8d0, 0x1e8d7,
  0x1e900, 0x1e94c, 0x1e950, 0x1e95a, 0x1ee00, 0x1ee04, 0x1ee05, 0x1ee20, 0x1ee21, 0x1ee23,
  0x1ee24, 0x1ee25, 0x1ee27, 0x1ee28, 0x1ee29, 0x1ee33, 0x1ee34, 0x1ee38, 0x1ee39, 0x1ee3a,
  0x1ee3b, 0x1ee3c, 0x1ee42, 0x1ee43, 0x1ee47, 0x1ee48, 0x1ee49, 0x1ee4a, 0x1ee4b, 0x1ee4c,
  0x1ee4d, 0x1ee50, 0x1ee51, 0x1ee53, 0x1ee54, 0x1ee55, 0x1ee57, 0x1ee58, 0x1ee59, 0x1ee5a,
  0x1ee5b, 0x1ee5c, 0x1ee5d, 0x1ee5e, 0x1ee5f, 0x1ee60, 0x1ee61, 0x1ee63, 0x1ee64, 0x1ee65,
  0x1ee67, 0x1ee6b, 0x1ee6c, 0x1ee73, 0x1ee74, 0x1ee78, 0x1ee79, 0x1ee7d, 0x1ee7e, 0x1ee7f,
  0x1ee80, 0x1ee8a, 0x1ee8b, 0x1ee9c, 0x1eea1, 0x1eea4, 0x1eea5, 0x1eeaa, 0x1eeab, 0x1eebc,
  0x1f130, 0x1f14a, 0x1f150, 0x1f16a, 0x1f170, 0x1f18a, 0x1fbf0, 0x1fbfa, 0x20000, 0x2a6e0,
  0x2a700, 0x2b81e, 0x2b820, 0x2ceae, 0x2ceb0, 0x2ebe1, 0x2ebf0, 0x2ee5e, 0x2f800, 0x2fa1e,
  0x30000, 0x3134b, 0x31350, 0x3347a, 0xe0100, 0xe01f0]

end ProcBook.Text
