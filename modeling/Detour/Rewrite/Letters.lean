import Detour.Rewrite.Transliteration

/-!
# Letters and their spellings

The dictionary that the program has at hand: a table of letters outside ASCII. A letter that has no entry
is left out.
-/

namespace Detour

namespace Transliteration

/-- The spelling of letters outside ASCII. -/
def table : List (Char × String) :=
  [('\u00aa', "a"), ('\u00ba', "o"), ('\u00c0', "A"), ('\u00c1', "A"), ('\u00c2', "A"),
    ('\u00c3', "A"), ('\u00c4', "A"), ('\u00c5', "A"), ('\u00c6', "AE"), ('\u00c7', "C"),
    ('\u00c8', "E"), ('\u00c9', "E"), ('\u00ca', "E"), ('\u00cb', "E"), ('\u00cc', "I"),
    ('\u00cd', "I"), ('\u00ce', "I"), ('\u00cf', "I"), ('\u00d0', "D"), ('\u00d1', "N"),
    ('\u00d2', "O"), ('\u00d3', "O"), ('\u00d4', "O"), ('\u00d5', "O"), ('\u00d6', "O"),
    ('\u00d8', "O"), ('\u00d9', "U"), ('\u00da', "U"), ('\u00db', "U"), ('\u00dc', "U"),
    ('\u00dd', "Y"), ('\u00de', "Th"), ('\u00df', "ss"), ('\u00e0', "a"), ('\u00e1', "a"),
    ('\u00e2', "a"), ('\u00e3', "a"), ('\u00e4', "a"), ('\u00e5', "a"), ('\u00e6', "ae"),
    ('\u00e7', "c"), ('\u00e8', "e"), ('\u00e9', "e"), ('\u00ea', "e"), ('\u00eb', "e"),
    ('\u00ec', "i"), ('\u00ed', "i"), ('\u00ee', "i"), ('\u00ef', "i"), ('\u00f0', "d"),
    ('\u00f1', "n"), ('\u00f2', "o"), ('\u00f3', "o"), ('\u00f4', "o"), ('\u00f5', "o"),
    ('\u00f6', "o"), ('\u00f8', "o"), ('\u00f9', "u"), ('\u00fa', "u"), ('\u00fb', "u"),
    ('\u00fc', "u"), ('\u00fd', "y"), ('\u00fe', "th"), ('\u00ff', "y"), ('\u0100', "A"),
    ('\u0101', "a"), ('\u0102', "A"), ('\u0103', "a"), ('\u0104', "A"), ('\u0105', "a"),
    ('\u0106', "C"), ('\u0107', "c"), ('\u0108', "C"), ('\u0109', "c"), ('\u010a', "C"),
    ('\u010b', "c"), ('\u010c', "C"), ('\u010d', "c"), ('\u010e', "D"), ('\u010f', "d"),
    ('\u0110', "D"), ('\u0111', "d"), ('\u0112', "E"), ('\u0113', "e"), ('\u0114', "E"),
    ('\u0115', "e"), ('\u0116', "E"), ('\u0117', "e"), ('\u0118', "E"), ('\u0119', "e"),
    ('\u011a', "E"), ('\u011b', "e"), ('\u011c', "G"), ('\u011d', "g"), ('\u011e', "G"),
    ('\u011f', "g"), ('\u0120', "G"), ('\u0121', "g"), ('\u0122', "G"), ('\u0123', "g"),
    ('\u0124', "H"), ('\u0125', "h"), ('\u0126', "H"), ('\u0127', "h"), ('\u0128', "I"),
    ('\u0129', "i"), ('\u012a', "I"), ('\u012b', "i"), ('\u012c', "I"), ('\u012d', "i"),
    ('\u012e', "I"), ('\u012f', "i"), ('\u0130', "I"), ('\u0131', "i"), ('\u0132', "IJ"),
    ('\u0133', "ij"), ('\u0134', "J"), ('\u0135', "j"), ('\u0136', "K"), ('\u0137', "k"),
    ('\u0139', "L"), ('\u013a', "l"), ('\u013b', "L"), ('\u013c', "l"), ('\u013d', "L"),
    ('\u013e', "l"), ('\u0141', "L"), ('\u0142', "l"), ('\u0143', "N"), ('\u0144', "n"),
    ('\u0145', "N"), ('\u0146', "n"), ('\u0147', "N"), ('\u0148', "n"), ('\u0149', "'n"),
    ('\u014c', "O"), ('\u014d', "o"), ('\u014e', "O"), ('\u014f', "o"), ('\u0150', "O"),
    ('\u0151', "o"), ('\u0152', "OE"), ('\u0153', "oe"), ('\u0154', "R"), ('\u0155', "r"),
    ('\u0156', "R"), ('\u0157', "r"), ('\u0158', "R"), ('\u0159', "r"), ('\u015a', "S"),
    ('\u015b', "s"), ('\u015c', "S"), ('\u015d', "s"), ('\u015e', "S"), ('\u015f', "s"),
    ('\u0160', "S"), ('\u0161', "s"), ('\u0162', "T"), ('\u0163', "t"), ('\u0164', "T"),
    ('\u0165', "t"), ('\u0166', "T"), ('\u0167', "t"), ('\u0168', "U"), ('\u0169', "u"),
    ('\u016a', "U"), ('\u016b', "u"), ('\u016c', "U"), ('\u016d', "u"), ('\u016e', "U"),
    ('\u016f', "u"), ('\u0170', "U"), ('\u0171', "u"), ('\u0172', "U"), ('\u0173', "u"),
    ('\u0174', "W"), ('\u0175', "w"), ('\u0176', "Y"), ('\u0177', "y"), ('\u0178', "Y"),
    ('\u0179', "Z"), ('\u017a', "z"), ('\u017b', "Z"), ('\u017c', "z"), ('\u017d', "Z"),
    ('\u017e', "z"), ('\u017f', "s"), ('\u01c5', "Dz"), ('\u01c8', "Lj"), ('\u02b0', "h"),
    ('\u02b9', "'"), ('\u02bb', "`"), ('\u02bc', "'"), ('\u02c0', "?"), ('\u0391', "A"),
    ('\u0392', "B"), ('\u0393', "G"), ('\u0394', "D"), ('\u0395', "E"), ('\u0396', "Z"),
    ('\u0397', "E"), ('\u0398', "Th"), ('\u0399', "I"), ('\u039a', "K"), ('\u039b', "L"),
    ('\u039c', "M"), ('\u039d', "N"), ('\u039e', "X"), ('\u039f', "O"), ('\u03a0', "P"),
    ('\u03a1', "R"), ('\u03a3', "S"), ('\u03a4', "T"), ('\u03a5', "U"), ('\u03a6', "Ph"),
    ('\u03a7', "Kh"), ('\u03a8', "Ps"), ('\u03a9', "O"), ('\u03ac', "a"), ('\u03ad', "e"),
    ('\u03af', "i"), ('\u03b1', "a"), ('\u03b2', "b"), ('\u03b3', "g"), ('\u03b4', "d"),
    ('\u03b5', "e"), ('\u03b6', "z"), ('\u03b7', "e"), ('\u03b8', "th"), ('\u03b9', "i"),
    ('\u03ba', "k"), ('\u03bb', "l"), ('\u03bc', "m"), ('\u03bd', "n"), ('\u03be', "x"),
    ('\u03bf', "o"), ('\u03c0', "p"), ('\u03c1', "r"), ('\u03c2', "s"), ('\u03c3', "s"),
    ('\u03c4', "t"), ('\u03c5', "u"), ('\u03c6', "ph"), ('\u03c7', "kh"), ('\u03c8', "ps"),
    ('\u03c9', "o"), ('\u03cc', "o"), ('\u0410', "A"), ('\u0411', "B"), ('\u0412', "V"),
    ('\u0413', "G"), ('\u0414', "D"), ('\u0415', "E"), ('\u0416', "Zh"), ('\u0417', "Z"),
    ('\u0418', "I"), ('\u0419', "I"), ('\u041a', "K"), ('\u041b', "L"), ('\u041c', "M"),
    ('\u041d', "N"), ('\u041e', "O"), ('\u041f', "P"), ('\u0420', "R"), ('\u0421', "S"),
    ('\u0422', "T"), ('\u0423', "U"), ('\u0424', "F"), ('\u0425', "Kh"), ('\u0426', "Ts"),
    ('\u0427', "Ch"), ('\u0428', "Sh"), ('\u0429', "Shch"), ('\u042a', "'"), ('\u042b', "Y"),
    ('\u042c', "'"), ('\u042d', "E"), ('\u042e', "Iu"), ('\u042f', "Ia"), ('\u0430', "a"),
    ('\u0431', "b"), ('\u0432', "v"), ('\u0433', "g"), ('\u0434', "d"), ('\u0435', "e"),
    ('\u0436', "zh"), ('\u0437', "z"), ('\u0438', "i"), ('\u0439', "i"), ('\u043a', "k"),
    ('\u043b', "l"), ('\u043c', "m"), ('\u043d', "n"), ('\u043e', "o"), ('\u043f', "p"),
    ('\u0440', "r"), ('\u0441', "s"), ('\u0442', "t"), ('\u0443', "u"), ('\u0444', "f"),
    ('\u0445', "kh"), ('\u0446', "ts"), ('\u0447', "ch"), ('\u0448', "sh"), ('\u0449', "shch"),
    ('\u044a', "'"), ('\u044b', "y"), ('\u044c', "'"), ('\u044d', "e"), ('\u044e', "iu"),
    ('\u044f', "ia"), ('\u0451', "io"), ('\u0457', "yi"), ('\u0540', "H"), ('\u0561', "a"),
    ('\u0575', "y"), ('\u05d5', "v"), ('\u05dc', "l"), ('\u05dd', "m"), ('\u05e9', "sh"),
    ('\u0627', ""), ('\u0628', "b"), ('\u062d', "H"), ('\u0631', "r"), ('\u0645', "m"),
    ('\u0924', "t"), ('\u0928', "n"), ('\u092e', "m"), ('\u0938', "s"), ('\u0e17', "th"),
    ('\u0e22', "y"), ('\u0e44', "ai"), ('\u10d0', "a"), ('\u10d7', "t`"), ('\u10d8', "i"),
    ('\u10da', "l"), ('\u10e0', "r"), ('\u10e3', "u"), ('\u10e5', "k`"), ('\u1e9e', "Ss"),
    ('\u2126', "Ohm"), ('\u212a', "K"), ('\u212b', "A"), ('\u304c', "ga"), ('\u306a', "na"),
    ('\u3072', "hi"), ('\u3089', "ra"), ('\u30ab', "ka"), ('\u30bf', "ta"), ('\u30ca', "na"),
    ('\u30ef', "wa"), ('\u30fc', ""), ('\u4e2d', "Zhong "), ('\u4eac', "Jing "),
    ('\u5317', "Bei "), ('\u6587', "Wen "), ('\u65e5', "Ri "), ('\u672c', "Ben "),
    ('\u6771', "Dong "), ('\u8a9e', "Yu "), ('\uad6d', "gug"), ('\uc5b4', "eo"),
    ('\ud55c', "han"), ('\ufb00', "ff"), ('\ufb03', "ffi"),
    ('\ufdfa', "\x7bSalla Llahu Alayhi WaSallam\x7d"), ('\uff21', "A"), ('\uff22', "B"),
    ('\uff23', "C"), ('\uff41', "a"), ('\uff42', "b"), ('\uff43', "c"), (Char.ofNat 0x10400, "E"),
    (Char.ofNat 0x1d400, "A"), (Char.ofNat 0x1d401, "B"), (Char.ofNat 0x1e900, "A"),
    (Char.ofNat 0x20000, "He")]

/-- The dictionary of this table. -/
instance dictionary : Dictionary := ⟨fun c => ((table.lookup c).map String.toList).getD []⟩

end Transliteration

end Detour
