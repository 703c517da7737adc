namespace ClassSkeleton.Unicode

/-!
# Table of scripts

Each word of the runs is the four-letter code of a script followed by the first code point of
a run of it, in hexadecimal; `zzzz` stands where no script is assigned. Each word of the names
lists the spellings of one script, the code first.
-/

def scriptTable : List String := [
  "zzzz0 zyyy0 latn41 zyyy5b latn61 zyyy7b latnaa zyyyab latnba zyyybb latnc0 zyyyd7 latnd8",
  "zyyyf7 latnf8 zyyy2b9 latn2e0 zyyy2e5 bopo2ea zyyy2ec zinh300 grek370 zyyy374 grek375",
  "zzzz378 grek37a zyyy37e grek37f zzzz380 grek384 zyyy385 grek386 zyyy387 grek388 zzzz38b",
  "grek38c zzzz38d grek38e zzzz3a2 grek3a3 copt3e2 grek3f0 cyrl400 zinh485 cyrl487 zzzz530",
  "armn531 zzzz557 armn559 zzzz58b armn58d zzzz590 hebr591 zzzz5c8 hebr5d0 zzzz5eb hebr5ef",
  "zzzz5f5 arab600 zyyy605 arab606 zyyy60c arab60d zyyy61b arab61c zyyy61f arab620 zyyy640",
  "arab641 zinh64b arab656 zinh670 arab671 zyyy6dd arab6de syrc700 zzzz70e syrc70f zzzz74b",
  "syrc74d arab750 thaa780 zzzz7b2 nkoo7c0 zzzz7fb nkoo7fd samr800 zzzz82e samr830 zzzz83f",
  "mand840 zzzz85c mand85e zzzz85f syrc860 zzzz86b arab870 zzzz892 arab897 zyyy8e2 arab8e3",
  "deva900 zinh951 deva955 zyyy964 deva966 beng980 zzzz984 beng985 zzzz98d beng98f zzzz991",
  "beng993 zzzz9a9 beng9aa zzzz9b1 beng9b2 zzzz9b3 beng9b6 zzzz9ba beng9bc zzzz9c5 beng9c7",
  "zzzz9c9 beng9cb zzzz9cf beng9d7 zzzz9d8 beng9dc zzzz9de beng9df zzzz9e4 beng9e6 zzzz9ff",
  "gurua01 zzzza04 gurua05 zzzza0b gurua0f zzzza11 gurua13 zzzza29 gurua2a zzzza31 gurua32",
  "zzzza34 gurua35 zzzza37 gurua38 zzzza3a gurua3c zzzza3d gurua3e zzzza43 gurua47 zzzza49",
  "gurua4b zzzza4e gurua51 zzzza52 gurua59 zzzza5d gurua5e zzzza5f gurua66 zzzza77 gujra81",
  "zzzza84 gujra85 zzzza8e gujra8f zzzza92 gujra93 zzzzaa9 gujraaa zzzzab1 gujrab2 zzzzab4",
  "gujrab5 zzzzaba gujrabc zzzzac6 gujrac7 zzzzaca gujracb zzzzace gujrad0 zzzzad1 gujrae0",
  "zzzzae4 gujrae6 zzzzaf2 gujraf9 zzzzb00 oryab01 zzzzb04 oryab05 zzzzb0d oryab0f zzzzb11",
  "oryab13 zzzzb29 oryab2a zzzzb31 oryab32 zzzzb34 oryab35 zzzzb3a oryab3c zzzzb45 oryab47",
  "zzzzb49 oryab4b zzzzb4e oryab55 zzzzb58 oryab5c zzzzb5e oryab5f zzzzb64 oryab66 zzzzb78",
  "tamlb82 zzzzb84 tamlb85 zzzzb8b tamlb8e zzzzb91 tamlb92 zzzzb96 tamlb99 zzzzb9b tamlb9c",
  "zzzzb9d tamlb9e zzzzba0 tamlba3 zzzzba5 tamlba8 zzzzbab tamlbae zzzzbba tamlbbe zzzzbc3",
  "tamlbc6 zzzzbc9 tamlbca zzzzbce tamlbd0 zzzzbd1 tamlbd7 zzzzbd8 tamlbe6 zzzzbfb teluc00",
  "zzzzc0d teluc0e zzzzc11 teluc12 zzzzc29 teluc2a zzzzc3a teluc3c zzzzc45 teluc46 zzzzc49",
  "teluc4a zzzzc4e teluc55 zzzzc57 teluc58 zzzzc5b teluc5c zzzzc5e teluc60 zzzzc64 teluc66",
  "zzzzc70 teluc77 kndac80 zzzzc8d kndac8e zzzzc91 kndac92 zzzzca9 kndacaa zzzzcb4 kndacb5",
  "zzzzcba kndacbc zzzzcc5 kndacc6 zzzzcc9 kndacca zzzzcce kndacd5 zzzzcd7 kndacdc zzzzcdf",
  "kndace0 zzzzce4 kndace6 zzzzcf0 kndacf1 zzzzcf4 mlymd00 zzzzd0d mlymd0e zzzzd11 mlymd12",
  "zzzzd45 mlymd46 zzzzd49 mlymd4a zzzzd50 mlymd54 zzzzd64 mlymd66 zzzzd80 sinhd81 zzzzd84",
  "sinhd85 zzzzd97 sinhd9a zzzzdb2 sinhdb3 zzzzdbc sinhdbd zzzzdbe sinhdc0 zzzzdc7 sinhdca",
  "zzzzdcb sinhdcf zzzzdd5 sinhdd6 zzzzdd7 sinhdd8 zzzzde0 sinhde6 zzzzdf0 sinhdf2 zzzzdf5",
  "thaie01 zzzze3b zyyye3f thaie40 zzzze5c laooe81 zzzze83 laooe84 zzzze85 laooe86 zzzze8b",
  "laooe8c zzzzea4 laooea5 zzzzea6 laooea7 zzzzebe laooec0 zzzzec5 laooec6 zzzzec7 laooec8",
  "zzzzecf laooed0 zzzzeda laooedc zzzzee0 tibtf00 zzzzf48 tibtf49 zzzzf6d tibtf71 zzzzf98",
  "tibtf99 zzzzfbd tibtfbe zzzzfcd tibtfce zyyyfd5 tibtfd9 zzzzfdb mymr1000 geor10a0 zzzz10c6",
  "geor10c7 zzzz10c8 geor10cd zzzz10ce geor10d0 zyyy10fb geor10fc hang1100 ethi1200 zzzz1249",
  "ethi124a zzzz124e ethi1250 zzzz1257 ethi1258 zzzz1259 ethi125a zzzz125e ethi1260 zzzz1289",
  "ethi128a zzzz128e ethi1290 zzzz12b1 ethi12b2 zzzz12b6 ethi12b8 zzzz12bf ethi12c0 zzzz12c1",
  "ethi12c2 zzzz12c6 ethi12c8 zzzz12d7 ethi12d8 zzzz1311 ethi1312 zzzz1316 ethi1318 zzzz135b",
  "ethi135d zzzz137d ethi1380 zzzz139a cher13a0 zzzz13f6 cher13f8 zzzz13fe cans1400 ogam1680",
  "zzzz169d runr16a0 zyyy16eb runr16ee zzzz16f9 tglg1700 zzzz1716 tglg171f hano1720 zyyy1735",
  "zzzz1737 buhd1740 zzzz1754 tagb1760 zzzz176d tagb176e zzzz1771 tagb1772 zzzz1774 khmr1780",
  "zzzz17de khmr17e0 zzzz17ea khmr17f0 zzzz17fa mong1800 zyyy1802 mong1804 zyyy1805 mong1806",
  "zzzz181a mong1820 zzzz1879 mong1880 zzzz18ab cans18b0 zzzz18f6 limb1900 zzzz191f limb1920",
  "zzzz192c limb1930 zzzz193c limb1940 zzzz1941 limb1944 tale1950 zzzz196e tale1970 zzzz1975",
  "talu1980 zzzz19ac talu19b0 zzzz19ca talu19d0 zzzz19db talu19de khmr19e0 bugi1a00 zzzz1a1c",
  "bugi1a1e lana1a20 zzzz1a5f lana1a60 zzzz1a7d lana1a7f zzzz1a8a lana1a90 zzzz1a9a lana1aa0",
  "zzzz1aae zinh1ab0 zzzz1ade zinh1ae0 zzzz1aec bali1b00 zzzz1b4d bali1b4e sund1b80 batk1bc0",
  "zzzz1bf4 batk1bfc lepc1c00 zzzz1c38 lepc1c3b zzzz1c4a lepc1c4d olck1c50 cyrl1c80 zzzz1c8b",
  "geor1c90 zzzz1cbb geor1cbd sund1cc0 zzzz1cc8 zinh1cd0 zyyy1cd3 zinh1cd4 zyyy1ce1 zinh1ce2",
  "zyyy1ce9 zinh1ced zyyy1cee zinh1cf4 zyyy1cf5 zinh1cf8 zyyy1cfa zzzz1cfb latn1d00 grek1d26",
  "cyrl1d2b latn1d2c grek1d5d latn1d62 grek1d66 latn1d6b cyrl1d78 latn1d79 grek1dbf zinh1dc0",
  "latn1e00 grek1f00 zzzz1f16 grek1f18 zzzz1f1e grek1f20 zzzz1f46 grek1f48 zzzz1f4e grek1f50",
  "zzzz1f58 grek1f59 zzzz1f5a grek1f5b zzzz1f5c grek1f5d zzzz1f5e grek1f5f zzzz1f7e grek1f80",
  "zzzz1fb5 grek1fb6 zzzz1fc5 grek1fc6 zzzz1fd4 grek1fd6 zzzz1fdc grek1fdd zzzz1ff0 grek1ff2",
  "zzzz1ff5 grek1ff6 zzzz1fff zyyy2000 zinh200c zyyy200e zzzz2065 zyyy2066 latn2071 zzzz2072",
  "zyyy2074 latn207f zyyy2080 zzzz208f latn2090 zzzz209d zyyy20a0 zzzz20c2 zinh20d0 zzzz20f1",
  "zyyy2100 grek2126 zyyy2127 latn212a zyyy212c latn2132 zyyy2133 latn214e zyyy214f latn2160",
  "zyyy2189 zzzz218c zyyy2190 zzzz242a zyyy2440 zzzz244b zyyy2460 brai2800 zyyy2900 zzzz2b74",
  "zyyy2b76 glag2c00 latn2c60 copt2c80 zzzz2cf4 copt2cf9 geor2d00 zzzz2d26 geor2d27 zzzz2d28",
  "geor2d2d zzzz2d2e tfng2d30 zzzz2d68 tfng2d6f zzzz2d71 tfng2d7f ethi2d80 zzzz2d97 ethi2da0",
  "zzzz2da7 ethi2da8 zzzz2daf ethi2db0 zzzz2db7 ethi2db8 zzzz2dbf ethi2dc0 zzzz2dc7 ethi2dc8",
  "zzzz2dcf ethi2dd0 zzzz2dd7 ethi2dd8 zzzz2ddf cyrl2de0 zyyy2e00 zzzz2e5e hani2e80 zzzz2e9a",
  "hani2e9b zzzz2ef4 hani2f00 zzzz2fd6 zyyy2ff0 hani3005 zyyy3006 hani3007 zyyy3008 hani3021",
  "zinh302a hang302e zyyy3030 hani3038 zyyy303c zzzz3040 hira3041 zzzz3097 zinh3099 zyyy309b",
  "hira309d zyyy30a0 kana30a1 zyyy30fb kana30fd zzzz3100 bopo3105 zzzz3130 hang3131 zzzz318f",
  "zyyy3190 bopo31a0 zyyy31c0 zzzz31e6 zyyy31ef kana31f0 hang3200 zzzz321f zyyy3220 hang3260",
  "zyyy327f kana32d0 zyyy32ff kana3300 zyyy3358 hani3400 zyyy4dc0 hani4e00 yiiia000 zzzza48d",
  "yiiia490 zzzza4c7 lisua4d0 vaiia500 zzzza62c cyrla640 bamua6a0 zzzza6f8 zyyya700 latna722",
  "zyyya788 latna78b zzzza7dd latna7f1 syloa800 zzzza82d zyyya830 zzzza83a phaga840 zzzza878",
  "saura880 zzzza8c6 saura8ce zzzza8da devaa8e0 kalia900 zyyya92e kalia92f rjnga930 zzzza954",
  "rjnga95f hanga960 zzzza97d javaa980 zzzza9ce zyyya9cf javaa9d0 zzzza9da javaa9de mymra9e0",
  "zzzza9ff chamaa00 zzzzaa37 chamaa40 zzzzaa4e chamaa50 zzzzaa5a chamaa5c mymraa60 tavtaa80",
  "zzzzaac3 tavtaadb mteiaae0 zzzzaaf7 ethiab01 zzzzab07 ethiab09 zzzzab0f ethiab11 zzzzab17",
  "ethiab20 zzzzab27 ethiab28 zzzzab2f latnab30 zyyyab5b latnab5c grekab65 latnab66 zyyyab6a",
  "zzzzab6c cherab70 mteiabc0 zzzzabee mteiabf0 zzzzabfa hangac00 zzzzd7a4 hangd7b0 zzzzd7c7",
  "hangd7cb zzzzd7fc hanif900 zzzzfa6e hanifa70 zzzzfada latnfb00 zzzzfb07 armnfb13 zzzzfb18",
  "hebrfb1d zzzzfb37 hebrfb38 zzzzfb3d hebrfb3e zzzzfb3f hebrfb40 zzzzfb42 hebrfb43 zzzzfb45",
  "hebrfb46 arabfb50 zyyyfd3e arabfd40 zzzzfdd0 arabfdf0 zinhfe00 zyyyfe10 zzzzfe1a zinhfe20",
  "cyrlfe2e zyyyfe30 zzzzfe53 zyyyfe54 zzzzfe67 zyyyfe68 zzzzfe6c arabfe70 zzzzfe75 arabfe76",
  "zzzzfefd zyyyfeff zzzzff00 zyyyff01 latnff21 zyyyff3b latnff41 zyyyff5b kanaff66 zyyyff70",
  "kanaff71 zyyyff9e hangffa0 zzzzffbf hangffc2 zzzzffc8 hangffca zzzzffd0 hangffd2 zzzzffd8",
  "hangffda zzzzffdd zyyyffe0 zzzzffe7 zyyyffe8 zzzzffef zyyyfff9 zzzzfffe linb10000",
  "zzzz1000c linb1000d zzzz10027 linb10028 zzzz1003b linb1003c zzzz1003e linb1003f zzzz1004e",
  "linb10050 zzzz1005e linb10080 zzzz100fb zyyy10100 zzzz10103 zyyy10107 zzzz10134 zyyy10137",
  "grek10140 zzzz1018f zyyy10190 zzzz1019d grek101a0 zzzz101a1 zyyy101d0 zinh101fd zzzz101fe",
  "lyci10280 zzzz1029d cari102a0 zzzz102d1 zinh102e0 zyyy102e1 zzzz102fc ital10300 zzzz10324",
  "ital1032d goth10330 zzzz1034b perm10350 zzzz1037b ugar10380 zzzz1039e ugar1039f xpeo103a0",
  "zzzz103c4 xpeo103c8 zzzz103d6 dsrt10400 shaw10450 osma10480 zzzz1049e osma104a0 zzzz104aa",
  "osge104b0 zzzz104d4 osge104d8 zzzz104fc elba10500 zzzz10528 aghb10530 zzzz10564 aghb1056f",
  "vith10570 zzzz1057b vith1057c zzzz1058b vith1058c zzzz10593 vith10594 zzzz10596 vith10597",
  "zzzz105a2 vith105a3 zzzz105b2 vith105b3 zzzz105ba vith105bb zzzz105bd todr105c0 zzzz105f4",
  "lina10600 zzzz10737 lina10740 zzzz10756 lina10760 zzzz10768 latn10780 zzzz10786 latn10787",
  "zzzz107b1 latn107b2 zzzz107bb cprt10800 zzzz10806 cprt10808 zzzz10809 cprt1080a zzzz10836",
  "cprt10837 zzzz10839 cprt1083c zzzz1083d cprt1083f armi10840 zzzz10856 armi10857 palm10860",
  "nbat10880 zzzz1089f nbat108a7 zzzz108b0 hatr108e0 zzzz108f3 hatr108f4 zzzz108f6 hatr108fb",
  "phnx10900 zzzz1091c phnx1091f lydi10920 zzzz1093a lydi1093f sidt10940 zzzz1095a mero10980",
  "merc109a0 zzzz109b8 merc109bc zzzz109d0 merc109d2 khar10a00 zzzz10a04 khar10a05 zzzz10a07",
  "khar10a0c zzzz10a14 khar10a15 zzzz10a18 khar10a19 zzzz10a36 khar10a38 zzzz10a3b khar10a3f",
  "zzzz10a49 khar10a50 zzzz10a59 sarb10a60 narb10a80 zzzz10aa0 mani10ac0 zzzz10ae7 mani10aeb",
  "zzzz10af7 avst10b00 zzzz10b36 avst10b39 prti10b40 zzzz10b56 prti10b58 phli10b60 zzzz10b73",
  "phli10b78 phlp10b80 zzzz10b92 phlp10b99 zzzz10b9d phlp10ba9 zzzz10bb0 orkh10c00 zzzz10c49",
  "hung10c80 zzzz10cb3 hung10cc0 zzzz10cf3 hung10cfa rohg10d00 zzzz10d28 rohg10d30 zzzz10d3a",
  "gara10d40 zzzz10d66 gara10d69 zzzz10d86 gara10d8e zzzz10d90 arab10e60 zzzz10e7f yezi10e80",
  "zzzz10eaa yezi10eab zzzz10eae yezi10eb0 zzzz10eb2 arab10ec2 zzzz10ec8 arab10ed0 zzzz10ed9",
  "arab10efa sogo10f00 zzzz10f28 sogd10f30 zzzz10f5a ougr10f70 zzzz10f8a chrs10fb0 zzzz10fcc",
  "elym10fe0 zzzz10ff7 brah11000 zzzz1104e brah11052 zzzz11076 brah1107f kthi11080 zzzz110c3",
  "kthi110cd zzzz110ce sora110d0 zzzz110e9 sora110f0 zzzz110fa cakm11100 zzzz11135 cakm11136",
  "zzzz11148 mahj11150 zzzz11177 shrd11180 zzzz111e0 sinh111e1 zzzz111f5 khoj11200 zzzz11212",
  "khoj11213 zzzz11242 mult11280 zzzz11287 mult11288 zzzz11289 mult1128a zzzz1128e mult1128f",
  "zzzz1129e mult1129f zzzz112aa sind112b0 zzzz112eb sind112f0 zzzz112fa gran11300 zzzz11304",
  "gran11305 zzzz1130d gran1130f zzzz11311 gran11313 zzzz11329 gran1132a zzzz11331 gran11332",
  "zzzz11334 gran11335 zzzz1133a zinh1133b gran1133c zzzz11345 gran11347 zzzz11349 gran1134b",
  "zzzz1134e gran11350 zzzz11351 gran11357 zzzz11358 gran1135d zzzz11364 gran11366 zzzz1136d",
  "gran11370 zzzz11375 tutg11380 zzzz1138a tutg1138b zzzz1138c tutg1138e zzzz1138f tutg11390",
  "zzzz113b6 tutg113b7 zzzz113c1 tutg113c2 zzzz113c3 tutg113c5 zzzz113c6 tutg113c7 zzzz113cb",
  "tutg113cc zzzz113d6 tutg113d7 zzzz113d9 tutg113e1 zzzz113e3 newa11400 zzzz1145c newa1145d",
  "zzzz11462 tirh11480 zzzz114c8 tirh114d0 zzzz114da sidd11580 zzzz115b6 sidd115b8 zzzz115de",
  "modi11600 zzzz11645 modi11650 zzzz1165a mong11660 zzzz1166d takr11680 zzzz116ba takr116c0",
  "zzzz116ca mymr116d0 zzzz116e4 ahom11700 zzzz1171b ahom1171d zzzz1172c ahom11730 zzzz11747",
  "dogr11800 zzzz1183c wara118a0 zzzz118f3 wara118ff diak11900 zzzz11907 diak11909 zzzz1190a",
  "diak1190c zzzz11914 diak11915 zzzz11917 diak11918 zzzz11936 diak11937 zzzz11939 diak1193b",
  "zzzz11947 diak11950 zzzz1195a nand119a0 zzzz119a8 nand119aa zzzz119d8 nand119da zzzz119e5",
  "zanb11a00 zzzz11a48 soyo11a50 zzzz11aa3 cans11ab0 pauc11ac0 zzzz11af9 deva11b00 zzzz11b0a",
  "shrd11b60 zzzz11b68 sunu11bc0 zzzz11be2 sunu11bf0 zzzz11bfa bhks11c00 zzzz11c09 bhks11c0a",
  "zzzz11c37 bhks11c38 zzzz11c46 bhks11c50 zzzz11c6d marc11c70 zzzz11c90 marc11c92 zzzz11ca8",
  "marc11ca9 zzzz11cb7 gonm11d00 zzzz11d07 gonm11d08 zzzz11d0a gonm11d0b zzzz11d37 gonm11d3a",
  "zzzz11d3b gonm11d3c zzzz11d3e gonm11d3f zzzz11d48 gonm11d50 zzzz11d5a gong11d60 zzzz11d66",
  "gong11d67 zzzz11d69 gong11d6a zzzz11d8f gong11d90 zzzz11d92 gong11d93 zzzz11d99 gong11da0",
  "zzzz11daa tols11db0 zzzz11ddc tols11de0 zzzz11dea maka11ee0 zzzz11ef9 kawi11f00 zzzz11f11",
  "kawi11f12 zzzz11f3b kawi11f3e zzzz11f5b lisu11fb0 zzzz11fb1 taml11fc0 zzzz11ff2 taml11fff",
  "xsux12000 zzzz1239a xsux12400 zzzz1246f xsux12470 zzzz12475 xsux12480 zzzz12544 cpmn12f90",
  "zzzz12ff3 egyp13000 zzzz13456 egyp13460 zzzz143fb hluw14400 zzzz14647 gukh16100 zzzz1613a",
  "bamu16800 zzzz16a39 mroo16a40 zzzz16a5f mroo16a60 zzzz16a6a mroo16a6e tnsa16a70 zzzz16abf",
  "tnsa16ac0 zzzz16aca bass16ad0 zzzz16aee bass16af0 zzzz16af6 hmng16b00 zzzz16b46 hmng16b50",
  "zzzz16b5a hmng16b5b zzzz16b62 hmng16b63 zzzz16b78 hmng16b7d zzzz16b90 krai16d40 zzzz16d7a",
  "medf16e40 zzzz16e9b berf16ea0 zzzz16eb9 berf16ebb zzzz16ed4 plrd16f00 zzzz16f4b plrd16f4f",
  "zzzz16f88 plrd16f8f zzzz16fa0 tang16fe0 nshu16fe1 hani16fe2 kits16fe4 zzzz16fe5 hani16ff0",
  "zzzz16ff7 tang17000 kits18b00 zzzz18cd6 kits18cff tang18d00 zzzz18d1f tang18d80 zzzz18df3",
  "kana1aff0 zzzz1aff4 kana1aff5 zzzz1affc kana1affd zzzz1afff kana1b000 hira1b001 kana1b120",
  "zzzz1b123 hira1b132 zzzz1b133 hira1b150 zzzz1b153 kana1b155 zzzz1b156 kana1b164 zzzz1b168",
  "nshu1b170 zzzz1b2fc dupl1bc00 zzzz1bc6b dupl1bc70 zzzz1bc7d dupl1bc80 zzzz1bc89 dupl1bc90",
  "zzzz1bc9a dupl1bc9c zyyy1bca0 zzzz1bca4 zyyy1cc00 zzzz1ccfd zyyy1cd00 zzzz1ceb4 zyyy1ceba",
  "zzzz1ced1 zyyy1cee0 zzzz1cef1 zinh1cf00 zzzz1cf2e zinh1cf30 zzzz1cf47 zyyy1cf50 zzzz1cfc4",
  "zyyy1d000 zzzz1d0f6 zyyy1d100 zzzz1d127 zyyy1d129 zinh1d167 zyyy1d16a zinh1d17b zyyy1d183",
  "zinh1d185 zyyy1d18c zinh1d1aa zyyy1d1ae zzzz1d1eb grek1d200 zzzz1d246 zyyy1d2c0 zzzz1d2d4",
  "zyyy1d2e0 zzzz1d2f4 zyyy1d300 zzzz1d357 zyyy1d360 zzzz1d379 zyyy1d400 zzzz1d455 zyyy1d456",
  "zzzz1d49d zyyy1d49e zzzz1d4a0 zyyy1d4a2 zzzz1d4a3 zyyy1d4a5 zzzz1d4a7 zyyy1d4a9 zzzz1d4ad",
  "zyyy1d4ae zzzz1d4ba zyyy1d4bb zzzz1d4bc zyyy1d4bd zzzz1d4c4 zyyy1d4c5 zzzz1d506 zyyy1d507",
  "zzzz1d50b zyyy1d50d zzzz1d515 zyyy1d516 zzzz1d51d zyyy1d51e zzzz1d53a zyyy1d53b zzzz1d53f",
  "zyyy1d540 zzzz1d545 zyyy1d546 zzzz1d547 zyyy1d54a zzzz1d551 zyyy1d552 zzzz1d6a6 zyyy1d6a8",
  "zzzz1d7cc zyyy1d7ce sgnw1d800 zzzz1da8c sgnw1da9b zzzz1daa0 sgnw1daa1 zzzz1dab0 latn1df00",
  "zzzz1df1f latn1df25 zzzz1df2b glag1e000 zzzz1e007 glag1e008 zzzz1e019 glag1e01b zzzz1e022",
  "glag1e023 zzzz1e025 glag1e026 zzzz1e02b cyrl1e030 zzzz1e06e cyrl1e08f zzzz1e090 hmnp1e100",
  "zzzz1e12d hmnp1e130 zzzz1e13e hmnp1e140 zzzz1e14a hmnp1e14e zzzz1e150 toto1e290 zzzz1e2af",
  "wcho1e2c0 zzzz1e2fa wcho1e2ff zzzz1e300 nagm1e4d0 zzzz1e4fa onao1e5d0 zzzz1e5fb onao1e5ff",
  "zzzz1e600 tayo1e6c0 zzzz1e6df tayo1e6e0 zzzz1e6f6 tayo1e6fe zzzz1e700 ethi1e7e0 zzzz1e7e7",
  "ethi1e7e8 zzzz1e7ec ethi1e7ed zzzz1e7ef ethi1e7f0 zzzz1e7ff mend1e800 zzzz1e8c5 mend1e8c7",
  "zzzz1e8d7 adlm1e900 zzzz1e94c adlm1e950 zzzz1e95a adlm1e95e zzzz1e960 zyyy1ec71 zzzz1ecb5",
  "zyyy1ed01 zzzz1ed3e arab1ee00 zzzz1ee04 arab1ee05 zzzz1ee20 arab1ee21 zzzz1ee23 arab1ee24",
  "zzzz1ee25 arab1ee27 zzzz1ee28 arab1ee29 zzzz1ee33 arab1ee34 zzzz1ee38 arab1ee39 zzzz1ee3a",
  "arab1ee3b zzzz1ee3c arab1ee42 zzzz1ee43 arab1ee47 zzzz1ee48 arab1ee49 zzzz1ee4a arab1ee4b",
  "zzzz1ee4c arab1ee4d zzzz1ee50 arab1ee51 zzzz1ee53 arab1ee54 zzzz1ee55 arab1ee57 zzzz1ee58",
  "arab1ee59 zzzz1ee5a arab1ee5b zzzz1ee5c arab1ee5d zzzz1ee5e arab1ee5f zzzz1ee60 arab1ee61",
  "zzzz1ee63 arab1ee64 zzzz1ee65 arab1ee67 zzzz1ee6b arab1ee6c zzzz1ee73 arab1ee74 zzzz1ee78",
  "arab1ee79 zzzz1ee7d arab1ee7e zzzz1ee7f arab1ee80 zzzz1ee8a arab1ee8b zzzz1ee9c arab1eea1",
  "zzzz1eea4 arab1eea5 zzzz1eeaa arab1eeab zzzz1eebc arab1eef0 zzzz1eef2 zyyy1f000 zzzz1f02c",
  "zyyy1f030 zzzz1f094 zyyy1f0a0 zzzz1f0af zyyy1f0b1 zzzz1f0c0 zyyy1f0c1 zzzz1f0d0 zyyy1f0d1",
  "zzzz1f0f6 zyyy1f100 zzzz1f1ae zyyy1f1e6 hira1f200 zyyy1f201 zzzz1f203 zyyy1f210 zzzz1f23c",
  "zyyy1f240 zzzz1f249 zyyy1f250 zzzz1f252 zyyy1f260 zzzz1f266 zyyy1f300 zzzz1f6d9 zyyy1f6dc",
  "zzzz1f6ed zyyy1f6f0 zzzz1f6fd zyyy1f700 zzzz1f7da zyyy1f7e0 zzzz1f7ec zyyy1f7f0 zzzz1f7f1",
  "zyyy1f800 zzzz1f80c zyyy1f810 zzzz1f848 zyyy1f850 zzzz1f85a zyyy1f860 zzzz1f888 zyyy1f890",
  "zzzz1f8ae zyyy1f8b0 zzzz1f8bc zyyy1f8c0 zzzz1f8c2 zyyy1f8d0 zzzz1f8d9 zyyy1f900 zzzz1fa58",
  "zyyy1fa60 zzzz1fa6e zyyy1fa70 zzzz1fa7d zyyy1fa80 zzzz1fa8b zyyy1fa8e zzzz1fac7 zyyy1fac8",
  "zzzz1fac9 zyyy1facd zzzz1fadd zyyy1fadf zzzz1faeb zyyy1faef zzzz1faf9 zyyy1fb00 zzzz1fb93",
  "zyyy1fb94 zzzz1fbfb hani20000 zzzz2a6e0 hani2a700 zzzz2b81e hani2b820 zzzz2ceae hani2ceb0",
  "zzzz2ebe1 hani2ebf0 zzzz2ee5e hani2f800 zzzz2fa1e hani30000 zzzz3134b hani31350 zzzz3347a",
  "zyyye0001 zzzze0002 zyyye0020 zzzze0080 zinhe0100 zzzze01f0"]

def scriptNameTable : List String := [
  "adlm=adlam aghb=caucasianalbanian ahom arab=arabic armi=imperialaramaic armn=armenian",
  "avst=avestan bali=balinese bamu=bamum bass=bassavah batk=batak beng=bengali berf=beriaerfe",
  "bhks=bhaiksuki bopo=bopomofo brah=brahmi brai=braille bugi=buginese buhd=buhid cakm=chakma",
  "cans=canadianaboriginal cari=carian cham cher=cherokee chrs=chorasmian copt=coptic=qaac",
  "cpmn=cyprominoan cprt=cypriot cyrl=cyrillic deva=devanagari diak=divesakuru dogr=dogra",
  "dsrt=deseret dupl=duployan egyp=egyptianhieroglyphs elba=elbasan elym=elymaic",
  "ethi=ethiopic gara=garay geor=georgian glag=glagolitic gong=gunjalagondi gonm=masaramgondi",
  "goth=gothic gran=grantha grek=greek gujr=gujarati gukh=gurungkhema guru=gurmukhi",
  "hang=hangul hani=han hano=hanunoo hatr=hatran hebr=hebrew hira=hiragana",
  "hluw=anatolianhieroglyphs hmng=pahawhhmong hmnp=nyiakengpuachuehmong hung=oldhungarian",
  "ital=olditalic java=javanese kali=kayahli kana=katakana kawi khar=kharoshthi khmr=khmer",
  "khoj=khojki kits=khitansmallscript knda=kannada krai=kiratrai kthi=kaithi lana=taitham",
  "laoo=lao latn=latin lepc=lepcha limb=limbu lina=lineara linb=linearb lisu lyci=lycian",
  "lydi=lydian mahj=mahajani maka=makasar mand=mandaic mani=manichaean marc=marchen",
  "medf=medefaidrin mend=mendekikakui merc=meroiticcursive mero=meroitichieroglyphs",
  "mlym=malayalam modi mong=mongolian mroo=mro mtei=meeteimayek mult=multani mymr=myanmar",
  "nagm=nagmundari nand=nandinagari narb=oldnortharabian nbat=nabataean newa nkoo=nko",
  "nshu=nushu ogam=ogham olck=olchiki onao=olonal orkh=oldturkic orya=oriya osge=osage",
  "osma=osmanya ougr=olduyghur palm=palmyrene pauc=paucinhau perm=oldpermic phag=phagspa",
  "phli=inscriptionalpahlavi phlp=psalterpahlavi phnx=phoenician plrd=miao",
  "prti=inscriptionalparthian rjng=rejang rohg=hanifirohingya runr=runic samr=samaritan",
  "sarb=oldsoutharabian saur=saurashtra sgnw=signwriting shaw=shavian shrd=sharada",
  "sidd=siddham sidt=sidetic sind=khudawadi sinh=sinhala sogd=sogdian sogo=oldsogdian",
  "sora=sorasompeng soyo=soyombo sund=sundanese sunu=sunuwar sylo=sylotinagri syrc=syriac",
  "tagb=tagbanwa takr=takri tale=taile talu=newtailue taml=tamil tang=tangut tavt=taiviet",
  "tayo=taiyo telu=telugu tfng=tifinagh tglg=tagalog thaa=thaana thai tibt=tibetan",
  "tirh=tirhuta tnsa=tangsa todr=todhri tols=tolongsiki toto tutg=tulutigalari ugar=ugaritic",
  "vaii=vai vith=vithkuqi wara=warangciti wcho=wancho xpeo=oldpersian xsux=cuneiform",
  "yezi=yezidi yiii=yi zanb=zanabazarsquare zinh=inherited=qaai zyyy=common"]

end ClassSkeleton.Unicode
