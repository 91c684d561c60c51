import Restage.Text.WordTable

/-!
# Case mappings beyond ASCII

The lower-case and title-case mappings of version 14 of the Unicode character database from U+0080
on, and the two properties that the rule for a final sigma looks at.  Mappings that add the same
amount to evenly spaced code points are kept as one `CaseRun`.  `Text/Case.lean` reads the tables.
-/

namespace Restage.Text

/-- The code points `first`, `first + step`, …, `last` are each mapped by adding `shift`. -/
structure CaseRun where
  first : Nat
  last : Nat
  step : Nat
  shift : Int

/-- The runs from `n` on: each is given by the distance of its first code point from the last one of
the run before it, the distance of its last code point from its first, and its shift.  Letters that
are shifted by one alternate with what they are mapped to. -/
def runsFrom (n : Nat) : List Int → List CaseRun
  | gap :: extent :: shift :: rest =>
    let first := n + gap.toNat
    let last := first + extent.toNat
    ⟨first, last, if shift.natAbs = 1 then 2 else 1, shift⟩ :: runsFrom last rest
  | _ => []

/-! ## Lower case -/

/-- Characters with a lower-case form of one character, from U+0080 on. -/
def lowerRuns : List CaseRun :=
  runsFrom 0 [192, 22, 32, 2, 6, 32, 34, 46, 1, 4, 4, 1, 3, 14, 1, 3, 44, 1, 2, 0, -121, 1, 4, 1, 4,
    0, 210, 1, 2, 1, 2, 0, 206, 1, 0, 1, 2, 1, 205, 1, 0, 1, 3, 0, 79, 1, 0, 202, 1, 0, 203, 1, 0,
    1, 2, 0, 205, 1, 0, 207, 2, 0, 211, 1, 0, 209, 1, 0, 1, 4, 0, 211, 1, 0, 213, 2, 0, 214, 1, 4,
    1, 2, 0, 218, 1, 0, 1, 2, 0, 218, 3, 0, 1, 2, 0, 218, 1, 0, 1, 2, 1, 217, 1, 2, 1, 2, 0, 219, 1,
    0, 1, 4, 0, 1, 8, 0, 2, 1, 0, 1, 2, 0, 2, 1, 0, 1, 2, 0, 2, 1, 16, 1, 3, 16, 1, 3, 0, 2, 1, 2,
    1, 2, 0, -97, 1, 0, -56, 1, 38, 1, 2, 0, -130, 2, 16, 1, 8, 0, 10795, 1, 0, 1, 2, 0, -163, 1, 0,
    10792, 3, 0, 1, 2, 0, -195, 1, 0, 69, 1, 0, 71, 1, 8, 1, 290, 2, 1, 4, 0, 1, 9, 0, 116, 7, 0,
    38, 2, 2, 37, 2, 0, 64, 2, 1, 63, 2, 16, 32, 2, 8, 32, 36, 0, 8, 9, 22, 1, 6, 0, -60, 3, 0, 1,
    2, 0, -7, 1, 0, 1, 3, 2, -130, 1, 15, 80, 1, 31, 32, 49, 32, 1, 10, 52, 1, 2, 0, 15, 1, 12, 1,
    3, 94, 1, 3, 37, 48, 2890, 37, 7264, 2, 0, 7264, 6, 0, 7264, 723, 79, 38864, 1, 5, 8, 2203, 42,
    -3008, 3, 2, -3008, 321, 148, 1, 10, 0, -7615, 2, 94, 1, 10, 7, -8, 9, 5, -8, 11, 7, -8, 9, 7,
    -8, 9, 5, -8, 12, 0, -8, 2, 0, -8, 2, 0, -8, 2, 0, -8, 9, 7, -8, 25, 7, -8, 9, 7, -8, 9, 7, -8,
    9, 1, -8, 1, 1, -74, 1, 0, -9, 12, 3, -86, 1, 0, -9, 12, 1, -8, 1, 1, -100, 13, 1, -8, 1, 1,
    -112, 1, 0, -7, 12, 1, -128, 1, 1, -126, 1, 0, -9, 298, 0, -7517, 4, 0, -8383, 1, 0, -8262, 7,
    0, 28, 46, 15, 16, 20, 0, 1, 819, 25, 26, 1841, 47, 48, 49, 0, 1, 2, 0, -10743, 1, 0, -3814, 1,
    0, -10727, 3, 4, 1, 2, 0, -10780, 1, 0, -10749, 1, 0, -10783, 1, 0, -10782, 2, 0, 1, 3, 0, 1, 9,
    1, -10815, 1, 98, 1, 9, 2, 1, 5, 0, 1, 31054, 44, 1, 20, 26, 1, 136, 12, 1, 4, 60, 1, 11, 2, 1,
    2, 0, -35332, 1, 8, 1, 5, 0, 1, 2, 0, -42280, 3, 2, 1, 4, 18, 1, 2, 0, -42308, 1, 0, -42319, 1,
    0, -42315, 1, 0, -42305, 1, 0, -42308, 2, 0, -42258, 1, 0, -42282, 1, 0, -42261, 1, 0, 928, 1,
    14, 1, 2, 0, -48, 1, 0, -42307, 1, 0, -35384, 1, 2, 1, 7, 0, 1, 6, 2, 1, 29, 0, 1, 22316, 25,
    32, 1222, 39, 40, 137, 35, 40, 157, 10, 39, 2, 14, 39, 2, 6, 39, 2, 1, 39, 1771, 50, 64, 3054,
    31, 32, 21889, 31, 32, 31393, 33, 34]

/-! ## Title case -/

/-- The run that leads back to where the characters of a run came from. -/
def CaseRun.inverse (r : CaseRun) : CaseRun :=
  ⟨((r.first : Int) + r.shift).toNat, ((r.last : Int) + r.shift).toNat, r.step, -r.shift⟩

/-- Characters whose title-case form is not the character that they are the lower case of. -/
def titleExceptions : List CaseRun :=
  runsFrom 0 [181, 0, 743, 124, 0, -232, 78, 0, -300, 69, 0, 1, 2, 0, -1, 1, 0, 1, 2, 0, -1, 1, 0,
    1, 2, 0, -1, 37, 0, 1, 2, 0, -1, 338, 0, 84, 125, 0, -31, 14, 0, -62, 1, 0, -57, 4, 0, -47, 1,
    0, -54, 26, 0, -86, 1, 0, -80, 4, 0, -96, 3291, 42, 0, 3, 2, 0, 2945, 0, -6254, 1, 0, -6253, 1,
    0, -6244, 1, 1, -6242, 1, 0, -6243, 1, 0, -6236, 1, 0, -6181, 1, 0, 35266, 531, 0, -59, 291, 0,
    -7205]

/-- The title-case forms of one character, from U+0080 on; the first run that has a character
counts. -/
def titleRuns : List CaseRun :=
  titleExceptions ++ lowerRuns.map CaseRun.inverse

/-- Characters whose title-case form has several characters. -/
def titleSequences : List (Nat × List Nat) :=
  [(223, [83, 115]), (329, [700, 78]), (496, [74, 780]), (912, [921, 776, 769]),
   (944, [933, 776, 769]), (1415, [1333, 1410]), (7830, [72, 817]), (7831, [84, 776]),
   (7832, [87, 778]), (7833, [89, 778]), (7834, [65, 702]), (8016, [933, 787]),
   (8018, [933, 787, 768]), (8020, [933, 787, 769]), (8022, [933, 787, 834]),
   (8114, [8122, 837]), (8116, [902, 837]), (8118, [913, 834]), (8119, [913, 834, 837]),
   (8130, [8138, 837]), (8132, [905, 837]), (8134, [919, 834]), (8135, [919, 834, 837]),
   (8146, [921, 776, 768]), (8147, [921, 776, 769]), (8150, [921, 834]), (8151, [921, 776, 834]),
   (8162, [933, 776, 768]), (8163, [933, 776, 769]), (8164, [929, 787]), (8166, [933, 834]),
   (8167, [933, 776, 834]), (8178, [8186, 837]), (8180, [911, 837]), (8182, [937, 834]),
   (8183, [937, 834, 837]), (64256, [70, 102]), (64257, [70, 105]), (64258, [70, 108]),
   (64259, [70, 102, 105]), (64260, [70, 102, 108]), (64261, [83, 116]), (64262, [83, 116]),
   (64275, [1348, 1398]), (64276, [1348, 1381]), (64277, [1348, 1387]), (64278, [1358, 1398]),
   (64279, [1348, 1389])]

/-! ## Cased and case-ignorable characters -/

/-- The runs of cased characters from U+0080 on. -/
def casedRanges : List (Nat × Nat) :=
  rangesFrom 0 [170, 0, 11, 0, 5, 0, 6, 22, 2, 30, 2, 194, 2, 3, 5, 207, 2, 35, 8, 1, 31, 4, 97, 0,
    43, 3, 3, 1, 3, 3, 2, 0, 7, 0, 2, 2, 2, 0, 2, 19, 2, 82, 2, 138, 9, 165, 2, 37, 10, 40, 2840,
    37, 2, 0, 6, 0, 3, 42, 3, 2, 673, 85, 3, 5, 2179, 8, 8, 42, 3, 2, 65, 191, 65, 277, 3, 5, 3, 37,
    3, 5, 3, 7, 2, 0, 2, 0, 2, 0, 2, 30, 3, 52, 2, 6, 2, 0, 4, 2, 2, 6, 4, 3, 3, 5, 5, 12, 6, 2, 2,
    6, 117, 0, 14, 0, 17, 12, 102, 0, 5, 0, 3, 9, 2, 0, 4, 4, 7, 0, 2, 0, 2, 0, 2, 3, 2, 5, 5, 0, 3,
    3, 6, 4, 5, 0, 18, 31, 4, 1, 818, 51, 1815, 228, 7, 3, 4, 1, 13, 37, 2, 0, 6, 0, 30995, 45, 19,
    29, 133, 101, 4, 3, 2, 58, 6, 1, 2, 0, 2, 4, 28, 1, 2, 2, 822, 42, 2, 12, 8, 79, 20289, 6, 13,
    4, 1034, 25, 7, 25, 1190, 79, 97, 35, 5, 35, 117, 10, 2, 14, 2, 6, 2, 1, 2, 10, 2, 14, 2, 6, 2,
    1, 452, 0, 3, 2, 2, 41, 2, 8, 1222, 50, 14, 50, 2990, 63, 21857, 63, 25985, 84, 2, 70, 2, 1, 3,
    0, 3, 1, 3, 3, 2, 11, 2, 0, 2, 6, 2, 64, 2, 3, 3, 7, 2, 6, 2, 27, 2, 3, 2, 4, 2, 0, 4, 6, 2,
    339, 3, 24, 2, 24, 2, 30, 2, 24, 2, 30, 2, 24, 2, 30, 2, 24, 2, 30, 2, 24, 2, 7, 1845, 9, 2, 19,
    2530, 67, 2029, 25, 7, 25, 7, 25]

/-- The runs of characters that the search for a neighbouring letter passes over. -/
def caseIgnorableRanges : List (Nat × Nat) :=
  rangesFrom 0 [39, 0, 7, 0, 12, 0, 36, 0, 2, 0, 72, 0, 5, 0, 2, 0, 5, 0, 3, 1, 504, 191, 5, 1, 5,
    0, 10, 1, 2, 0, 252, 6, 208, 0, 6, 0, 50, 44, 2, 0, 2, 1, 2, 1, 2, 0, 45, 0, 12, 5, 11, 10, 2,
    0, 36, 0, 11, 20, 17, 0, 102, 7, 2, 9, 2, 3, 34, 0, 2, 0, 31, 26, 92, 10, 59, 10, 5, 0, 3, 0,
    25, 23, 44, 2, 45, 0, 8, 1, 7, 7, 42, 57, 56, 0, 2, 0, 5, 7, 5, 0, 4, 6, 11, 1, 14, 0, 16, 0,
    59, 0, 5, 3, 9, 0, 21, 1, 27, 0, 3, 1, 58, 0, 5, 1, 5, 1, 3, 2, 4, 0, 31, 1, 4, 0, 12, 1, 58, 0,
    5, 4, 2, 1, 5, 0, 21, 1, 23, 5, 2, 0, 59, 0, 3, 0, 2, 3, 9, 0, 8, 1, 12, 1, 31, 0, 62, 0, 13, 0,
    51, 0, 4, 0, 56, 0, 2, 2, 6, 2, 2, 3, 8, 1, 12, 1, 30, 0, 59, 0, 3, 0, 7, 0, 6, 1, 21, 1, 29, 1,
    58, 1, 5, 3, 9, 0, 21, 1, 30, 0, 73, 0, 8, 2, 2, 0, 91, 0, 3, 6, 12, 8, 99, 0, 3, 8, 10, 0, 2,
    5, 75, 1, 28, 0, 2, 0, 2, 0, 56, 13, 2, 4, 2, 1, 6, 10, 2, 35, 10, 0, 103, 3, 2, 5, 2, 1, 3, 1,
    26, 1, 5, 2, 17, 3, 14, 0, 3, 1, 7, 0, 16, 0, 95, 0, 609, 2, 947, 2, 30, 1, 31, 1, 31, 1, 65, 1,
    2, 6, 9, 0, 3, 10, 4, 0, 6, 0, 46, 4, 52, 0, 66, 1, 35, 0, 119, 2, 5, 1, 10, 0, 7, 2, 220, 1, 3,
    0, 59, 0, 2, 6, 2, 0, 2, 0, 3, 7, 7, 9, 3, 0, 40, 0, 9, 30, 50, 3, 49, 0, 2, 4, 2, 0, 6, 0, 41,
    8, 13, 1, 33, 3, 3, 1, 2, 2, 57, 0, 2, 1, 4, 0, 2, 2, 59, 7, 3, 1, 65, 5, 83, 2, 2, 12, 2, 6, 5,
    0, 7, 0, 4, 1, 51, 62, 14, 0, 35, 100, 446, 0, 2, 2, 12, 2, 14, 2, 14, 2, 14, 1, 13, 4, 9, 1,
    11, 0, 3, 0, 3, 4, 50, 4, 2, 9, 2, 0, 14, 0, 17, 12, 52, 32, 2956, 1, 114, 2, 126, 0, 16, 0, 97,
    31, 48, 0, 470, 0, 37, 3, 4, 4, 6, 0, 94, 5, 94, 2, 28439, 0, 1251, 5, 271, 0, 99, 3, 2, 9, 2,
    0, 29, 3, 81, 1, 15, 33, 79, 0, 24, 2, 104, 2, 4, 1, 9, 0, 4, 0, 5, 0, 26, 1, 6, 0, 152, 1, 27,
    17, 14, 0, 39, 7, 26, 10, 47, 2, 49, 0, 3, 3, 3, 1, 18, 0, 22, 1, 67, 5, 3, 1, 3, 1, 13, 0, 9,
    0, 36, 0, 12, 0, 52, 0, 2, 2, 3, 1, 6, 1, 2, 0, 28, 0, 15, 1, 6, 1, 2, 0, 101, 4, 10, 2, 122, 0,
    3, 0, 5, 0, 20273, 0, 148, 16, 574, 15, 4, 0, 13, 15, 35, 0, 3, 0, 170, 0, 8, 0, 7, 0, 12, 0,
    36, 0, 2, 0, 48, 0, 46, 1, 68, 0, 22, 2, 514, 0, 227, 0, 150, 4, 1030, 5, 2, 41, 2, 8, 583, 2,
    2, 1, 6, 3, 41, 2, 5, 0, 166, 1, 574, 3, 388, 1, 154, 10, 50, 3, 124, 0, 55, 14, 42, 0, 3, 1,
    11, 2, 50, 3, 3, 1, 3, 0, 5, 0, 11, 0, 51, 2, 37, 4, 2, 7, 63, 0, 13, 1, 53, 8, 11, 3, 3, 0, 96,
    2, 3, 0, 2, 1, 7, 0, 161, 0, 4, 7, 22, 1, 58, 1, 4, 0, 38, 6, 4, 4, 196, 7, 3, 2, 2, 0, 24, 0,
    85, 5, 2, 0, 5, 1, 2, 1, 239, 3, 7, 1, 2, 1, 28, 1, 86, 7, 3, 0, 2, 1, 107, 0, 2, 0, 3, 5, 2, 0,
    102, 2, 3, 3, 2, 4, 260, 8, 2, 1, 257, 1, 2, 0, 5, 0, 145, 3, 3, 1, 5, 0, 33, 9, 41, 5, 3, 3, 9,
    0, 10, 5, 3, 2, 47, 12, 2, 1, 407, 6, 2, 5, 2, 0, 83, 21, 3, 6, 2, 1, 2, 1, 123, 5, 4, 0, 2, 1,
    2, 6, 2, 0, 73, 1, 4, 0, 2, 0, 348, 1, 5436, 8, 14008, 4, 60, 6, 10, 3, 1036, 0, 64, 16, 65, 1,
    2, 1, 16396, 3, 2, 6, 2, 1, 3231, 1, 2, 3, 4701, 45, 3, 22, 545, 2, 10, 15, 3, 6, 31, 3, 149, 2,
    1980, 54, 5, 49, 9, 0, 15, 0, 23, 4, 2, 14, 1361, 6, 2, 16, 3, 6, 2, 1, 2, 4, 262, 13, 369, 0,
    62, 3, 1505, 6, 110, 7, 2736, 4, 789506, 0, 31, 95, 129, 239]

end Restage.Text
