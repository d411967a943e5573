import DocDecl.Text.Word

/-!
# Letter case

Two questions about case are asked: whether a text spells an ASCII word in any case, and whether a
character is its own upper case. For the first, a character stands for the ASCII letter that its
lower case is; beyond ASCII only the Kelvin sign has such a lower case.

## Main definitions

* `lowerAscii`, `Text.lower` : the lower case, as far as it is an ASCII letter.
* `hasUpperCase` : the characters that differ from their upper case.

## Main results

* `lowerAscii_of_ne_kelvin` : elsewhere this is the lower case of `Char`.
-/

namespace DocDecl

/-- The lower case of a character, where that is an ASCII letter; any other character stays. -/
def lowerAscii (c : Char) : Char := if c = '\u212a' then 'k' else c.toLower

theorem lowerAscii_of_ne_kelvin {c : Char} (h : c ≠ '\u212a') : lowerAscii c = c.toLower := by
  simp [lowerAscii, h]

/-- The text in lower case, as far as ASCII letters are concerned. -/
def Text.lower (t : Text) : Text := t.map lowerAscii

@[simp]
theorem Text.length_lower (t : Text) : (Text.lower t).length = t.length := by simp [Text.lower]

/-- Ranges beyond ASCII in which every character differs from its upper case. -/
def lowerCaseRanges : List (Nat × Nat) :=
  [(0xb5, 0xb5), (0xdf, 0xf6), (0xf8, 0xff), (0x17f, 0x180), (0x188, 0x188), (0x18c, 0x18c),
   (0x192, 0x192), (0x195, 0x195), (0x199, 0x19a), (0x19e, 0x19e), (0x1a8, 0x1a8), (0x1ad, 0x1ad),
   (0x1b0, 0x1b0), (0x1b9, 0x1b9), (0x1c5, 0x1c6), (0x1c8, 0x1c9), (0x1cb, 0x1cc), (0x23c, 0x23c),
   (0x23f, 0x240), (0x242, 0x242), (0x250, 0x254), (0x256, 0x257), (0x25c, 0x25c), (0x260, 0x261),
   (0x269, 0x26c), (0x272, 0x272), (0x275, 0x275), (0x27d, 0x27d), (0x283, 0x283), (0x287, 0x28c),
   (0x292, 0x292), (0x29d, 0x29e), (0x345, 0x345), (0x377, 0x377), (0x37b, 0x37d), (0x390, 0x390),
   (0x3ac, 0x3ce), (0x3d0, 0x3d1), (0x3d5, 0x3d7), (0x3f0, 0x3f3), (0x3f5, 0x3f5), (0x3f8, 0x3f8),
   (0x3fb, 0x3fb), (0x430, 0x45f), (0x561, 0x587), (0x10d0, 0x10fa), (0x10fd, 0x10ff),
   (0x13f8, 0x13fd), (0x1c80, 0x1c88), (0x1d79, 0x1d79), (0x1d7d, 0x1d7d), (0x1d8e, 0x1d8e),
   (0x1e96, 0x1e9b), (0x1f00, 0x1f07), (0x1f10, 0x1f15), (0x1f20, 0x1f27), (0x1f30, 0x1f37),
   (0x1f40, 0x1f45), (0x1f50, 0x1f57), (0x1f60, 0x1f67), (0x1f70, 0x1f7d), (0x1f80, 0x1fb4),
   (0x1fb6, 0x1fb7), (0x1fc2, 0x1fc4), (0x1fc6, 0x1fc7), (0x1fcc, 0x1fcc), (0x1fd0, 0x1fd3),
   (0x1fd6, 0x1fd7), (0x1fe0, 0x1fe7), (0x1ff2, 0x1ff4), (0x1ff6, 0x1ff7), (0x1ffc, 0x1ffc),
   (0x214e, 0x214e), (0x2170, 0x217f), (0x2184, 0x2184), (0x24d0, 0x24e9), (0x2c30, 0x2c5f),
   (0x2c61, 0x2c61), (0x2c65, 0x2c66), (0x2c73, 0x2c73), (0x2c76, 0x2c76), (0x2cf3, 0x2cf3),
   (0x2d00, 0x2d25), (0x2d27, 0x2d27), (0x2d2d, 0x2d2d), (0xa78c, 0xa78c), (0xa794, 0xa794),
   (0xa7d1, 0xa7d1), (0xa7f6, 0xa7f6), (0xab53, 0xab53), (0xab70, 0xabbf), (0xfb00, 0xfb06),
   (0xfb13, 0xfb17), (0xff41, 0xff5a), (0x10428, 0x1044f), (0x104d8, 0x104fb), (0x10597, 0x105a1),
   (0x105a3, 0x105b1), (0x105b3, 0x105b9), (0x105bb, 0x105bc), (0x10cc0, 0x10cf2),
   (0x118c0, 0x118df), (0x16e60, 0x16e7f), (0x1e922, 0x1e943)]

/-- Ranges beyond ASCII in which every second character, from the first on, differs from its upper
case. -/
def alternatingCaseRanges : List (Nat × Nat) :=
  [(0x101, 0x137), (0x13a, 0x148), (0x149, 0x177), (0x17a, 0x17e), (0x183, 0x185), (0x1a1, 0x1a5),
   (0x1b4, 0x1b6), (0x1bd, 0x1bf), (0x1ce, 0x1dc), (0x1dd, 0x1ef), (0x1f0, 0x1f2), (0x1f3, 0x1f5),
   (0x1f9, 0x21f), (0x223, 0x233), (0x247, 0x24f), (0x259, 0x25b), (0x263, 0x265), (0x266, 0x268),
   (0x26f, 0x271), (0x280, 0x282), (0x371, 0x373), (0x3d9, 0x3ef), (0x461, 0x481), (0x48b, 0x4bf),
   (0x4c2, 0x4ce), (0x4cf, 0x52f), (0x1e01, 0x1e95), (0x1ea1, 0x1eff), (0x1fbc, 0x1fbe),
   (0x2c68, 0x2c6c), (0x2c81, 0x2ce3), (0x2cec, 0x2cee), (0xa641, 0xa66d), (0xa681, 0xa69b),
   (0xa723, 0xa72f), (0xa733, 0xa76f), (0xa77a, 0xa77c), (0xa77f, 0xa787), (0xa791, 0xa793),
   (0xa797, 0xa7a9), (0xa7b5, 0xa7c3), (0xa7c8, 0xa7ca), (0xa7d7, 0xa7d9)]

/-- The class of characters that differ from their upper case. -/
def hasUpperCase (c : Char) : Bool :=
  let n := c.toNat
  if n < 0x80 then c.isLower
  else
    inRanges lowerCaseRanges n ||
      alternatingCaseRanges.any fun r => r.1 ≤ n && n ≤ r.2 && (n - r.1) % 2 == 0

end DocDecl
