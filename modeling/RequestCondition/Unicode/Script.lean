import RequestCondition.Unicode.CharSet

/-!
# Scripts

Every code point belongs to one script, which is common for signs that many scripts share and
unknown for code points without a character.  The table has the layout of that of the categories:
the length of a run in hexadecimal, left out when it is one, and the four letters of its script.

A second table lists the characters that several scripts use in fact, each range with the codes of
those scripts; the *extension* of a script is the script with these, and without those of them
that it does not use.
-/

set_option autoImplicit false

namespace RequestCondition

namespace Script

/-- The runs of equal script, from zero on. -/
def runText : String :=
  "41Zyyy1aLatn6Zyyy1aLatn2fZyyyLatnfZyyyLatn5Zyyy17LatnZyyy1fLatnZyyy1c1Latn27Zyyy5Latn5Zyyy2Bop
  o14Zyyy70Zinh4GrekZyyy3Grek2Zzzz4GrekZyyyGrek4ZzzzGrekZyyyGrekZyyy3GrekZzzzGrekZzzz14GrekZzzz3
  fGrekeCopt10Grek85Cyrl2Zinha9CyrlZzzz26Armn2Zzzz32Armn2Zzzz3ArmnZzzz37Hebr8Zzzz1bHebr4Zzzz6Heb
  rbZzzz5ArabZyyy6ArabZyyyeArabZyyy3ArabZyyy20ArabZyyyaArabbZinh1aArabZinh6cArabZyyy22ArabeSyrcZ
  zzz3cSyrc2Zzzz3Syrc30Arab32ThaaeZzzz3bNkoo2Zzzz3Nkoo2eSamr2ZzzzfSamrZzzz1cMand2ZzzzMandZzzzbSy
  rc5Zzzz22Arab5Zzzz4bArabZyyy1dArab51Deva4ZinhfDeva2Zyyy1aDeva4BengZzzz8Beng2Zzzz2Beng2Zzzz16Be
  ngZzzz7BengZzzzBeng3Zzzz4Beng2Zzzz9Beng2Zzzz2Beng2Zzzz4Beng8ZzzzBeng4Zzzz2BengZzzz5Beng2Zzzz19
  Beng2Zzzz3GuruZzzz6Guru4Zzzz2Guru2Zzzz16GuruZzzz7GuruZzzz2GuruZzzz2GuruZzzz2Guru2ZzzzGuruZzzz5
  Guru4Zzzz2Guru2Zzzz3Guru3ZzzzGuru7Zzzz4GuruZzzzGuru7Zzzz11GuruaZzzz3GujrZzzz9GujrZzzz3GujrZzzz
  16GujrZzzz7GujrZzzz2GujrZzzz5Gujr2ZzzzaGujrZzzz3GujrZzzz3Gujr2ZzzzGujrfZzzz4Gujr2ZzzzcGujr7Zzz
  z7GujrZzzz3OryaZzzz8Orya2Zzzz2Orya2Zzzz16OryaZzzz7OryaZzzz2OryaZzzz5Orya2Zzzz9Orya2Zzzz2Orya2Z
  zzz3Orya7Zzzz3Orya4Zzzz2OryaZzzz5Orya2Zzzz12OryaaZzzz2TamlZzzz6Taml3Zzzz3TamlZzzz4Taml3Zzzz2Ta
  mlZzzzTamlZzzz2Taml3Zzzz2Taml3Zzzz3Taml3ZzzzcTaml4Zzzz5Taml3Zzzz3TamlZzzz4Taml2ZzzzTaml6ZzzzTa
  mleZzzz15Taml5ZzzzdTeluZzzz3TeluZzzz17TeluZzzz10Telu2Zzzz9TeluZzzz3TeluZzzz4Telu7Zzzz2TeluZzzz
  3TeluZzzz2Telu2Zzzz4Telu2ZzzzaTelu7Zzzz9TeludKndaZzzz3KndaZzzz17KndaZzzzaKndaZzzz5Knda2Zzzz9Kn
  daZzzz3KndaZzzz4Knda7Zzzz2Knda5Zzzz3KndaZzzz4Knda2ZzzzaKndaZzzz3KndacZzzzdMlymZzzz3MlymZzzz33M
  lymZzzz3MlymZzzz6Mlym4Zzzz10Mlym2Zzzz1aMlymZzzz3SinhZzzz12Sinh3Zzzz18SinhZzzz9SinhZzzzSinh2Zzz
  z7Sinh3ZzzzSinh4Zzzz6SinhZzzzSinhZzzz8Sinh6ZzzzaSinh2Zzzz3SinhcZzzz3aThai4ZzzzZyyy1cThai25Zzzz
  2LaooZzzzLaooZzzz5LaooZzzz18LaooZzzzLaooZzzz17Laoo2Zzzz5LaooZzzzLaooZzzz7LaooZzzzaLaoo2Zzzz4La
  oo20Zzzz48TibtZzzz24Tibt4Zzzz27TibtZzzz24TibtZzzzfTibtZzzz7Tibt4Zyyy2Tibt25Zzzza0Mymr26GeorZzz
  zGeor5ZzzzGeor2Zzzz2bGeorZyyy4Geor100Hang49EthiZzzz4Ethi2Zzzz7EthiZzzzEthiZzzz4Ethi2Zzzz29Ethi
  Zzzz4Ethi2Zzzz21EthiZzzz4Ethi2Zzzz7EthiZzzzEthiZzzz4Ethi2ZzzzfEthiZzzz39EthiZzzz4Ethi2Zzzz43Et
  hi2Zzzz20Ethi3Zzzz1aEthi6Zzzz56Cher2Zzzz6Cher2Zzzz280Cans1dOgam3Zzzz4bRunr3ZyyybRunr7Zzzz16Tgl
  g9ZzzzTglg15Hano2Zyyy9Zzzz14BuhdcZzzzdTagbZzzz3TagbZzzz2TagbcZzzz5eKhmr2ZzzzaKhmr6ZzzzaKhmr6Zz
  zz2Mong2ZyyyMongZyyy14Mong6Zzzz59Mong7Zzzz2bMong5Zzzz46CansaZzzz1fLimbZzzzcLimb4ZzzzcLimb4Zzzz
  Limb3ZzzzcLimb1eTale2Zzzz5TalebZzzz2cTalu4Zzzz1aTalu6ZzzzbTalu3Zzzz2Talu20Khmr1cBugi2Zzzz2Bugi
  3fLanaZzzz1dLana2ZzzzbLana6ZzzzaLana6ZzzzeLana2Zzzz2eZinh2ZzzzcZinh14Zzzz4dBaliZzzz32Bali40Sun
  d34Batk8Zzzz4Batk38Lepc3ZzzzfLepc3Zzzz3Lepc30OlckbCyrl5Zzzz2bGeor2Zzzz3Geor8Sund8Zzzz3ZinhZyyy
  dZinhZyyy7Zinh4ZyyyZinh6ZyyyZinh3Zyyy2ZinhZyyy5Zzzz26Latn5GrekCyrl31Latn5Grek4Latn5GrekdLatnCy
  rl46LatnGrek40Zinh100Latn16Grek2Zzzz6Grek2Zzzz26Grek2Zzzz6Grek2Zzzz8GrekZzzzGrekZzzzGrekZzzzGr
  ekZzzz1fGrek2Zzzz35GrekZzzzfGrekZzzzeGrek2Zzzz6GrekZzzz13Grek2Zzzz3GrekZzzz9GrekZzzzcZyyy2Zinh
  57ZyyyZzzzbZyyyLatn2ZzzzbZyyyLatnfZyyyZzzzdLatn3Zzzz22ZyyyeZzzz21ZinhfZzzz26ZyyyGrek3Zyyy2Latn
  6ZyyyLatn1bZyyyLatn11Zyyy29Latn3Zyyy4Zzzz29aZyyy16ZzzzbZyyy15Zzzz3a0Zyyy100Brai274Zyyy2Zzzz8aZ
  yyy60Glag20Latn74Copt5Zzzz7Copt26GeorZzzzGeor5ZzzzGeor2Zzzz38Tfng7Zzzz2TfngeZzzzTfng17Ethi9Zzz
  z7EthiZzzz7EthiZzzz7EthiZzzz7EthiZzzz7EthiZzzz7EthiZzzz7EthiZzzz7EthiZzzz20Cyrl5eZyyy22Zzzz1aH
  aniZzzz59HanicZzzzd6Hani1aZzzz15ZyyyHaniZyyyHani19Zyyy9Hani4Zinh2Hang8Zyyy4Hani4ZyyyZzzz56Hira
  2Zzzz2Zinh2Zyyy3HiraZyyy5aKana2Zyyy3Kana5Zzzz2bBopoZzzz5eHangZzzz10Zyyy20Bopo26Zyyy9ZzzzZyyy10
  Kana1fHangZzzz40Zyyy1fHang51Zyyy2fKanaZyyy58Kanaa8Zyyy19c0Hani40Zyyy5200Hani48dYiii3Zzzz37Yiii
  9Zzzz30Lisu12cVaii14Zzzz60Cyrl58Bamu8Zzzz22Zyyy66Latn3Zyyy52Latn14ZzzzfLatn2dSylo3ZzzzaZyyy6Zz
  zz38Phag8Zzzz46Saur8ZzzzcSaur6Zzzz20Deva2eKaliZyyyKali24RjngbZzzzRjng1dHang3Zzzz4eJavaZzzzZyyy
  aJava4Zzzz2Java1fMymrZzzz37Cham9ZzzzeCham2ZzzzaCham2Zzzz4Cham20Mymr43Tavt18Zzzz5Tavt17MteiaZzz
  z6Ethi2Zzzz6Ethi2Zzzz6Ethi9Zzzz7EthiZzzz7EthiZzzz2bLatnZyyy9LatnGrek4Latn2Zyyy4Zzzz50Cher2eMte
  i2ZzzzaMtei6Zzzz2ba4HangcZzzz17Hang4Zzzz31Hang2104Zzzz16eHani2Zzzz6aHani26Zzzz7LatncZzzz5Armn5
  Zzzz1aHebrZzzz5HebrZzzzHebrZzzz2HebrZzzz2HebrZzzzaHebr1eeArab2Zyyy90Arab20Zzzz10Arab10ZinhaZyy
  y6ZzzzeZinh2Cyrl23ZyyyZzzz13ZyyyZzzz4Zyyy4Zzzz5ArabZzzz87Arab2ZzzzZyyyZzzz20Zyyy1aLatn6Zyyy1aL
  atnbZyyyaKanaZyyy2dKana2Zyyy1fHang3Zzzz6Hang2Zzzz6Hang2Zzzz6Hang2Zzzz3Hang3Zzzz7ZyyyZzzz7Zyyya
  Zzzz5Zyyy2ZzzzcLinbZzzz1aLinbZzzz13LinbZzzz2LinbZzzzfLinb2ZzzzeLinb22Zzzz7bLinb5Zzzz3Zyyy4Zzzz
  2dZyyy3Zzzz9Zyyy4fGrekZzzzdZyyy3ZzzzGrek2fZzzz2dZyyyZinh82Zzzz1dLyci3Zzzz31CarifZzzzZinh1bZyyy
  4Zzzz24Ital9Zzzz3Ital1bGoth5Zzzz2bPerm5Zzzz1eUgarZzzzUgar24Xpeo4ZzzzeXpeo2aZzzz50Dsrt30Shaw1eO
  sma2ZzzzaOsma6Zzzz24Osge4Zzzz24Osge4Zzzz28Elba8Zzzz34AghbbZzzzAghbbVithZzzzfVithZzzz7VithZzzz2
  VithZzzzbVithZzzzfVithZzzz7VithZzzz2Vith3Zzzz34TodrcZzzz137Lina9Zzzz16LinaaZzzz8Lina18Zzzz6Lat
  nZzzz2aLatnZzzz9Latn45Zzzz6Cprt2ZzzzCprtZzzz2cCprtZzzz2Cprt3ZzzzCprt2ZzzzCprt16ArmiZzzz9Armi20
  Palm1fNbat8Zzzz9Nbat30Zzzz13HatrZzzz2Hatr5Zzzz5Hatr1cPhnx3ZzzzPhnx1aLydi5ZzzzLydi1aSidt26Zzzz2
  0Mero18Merc4Zzzz14Merc2Zzzz2eMerc4KharZzzz2Khar5Zzzz8KharZzzz3KharZzzz1dKhar2Zzzz3Khar4ZzzzaKh
  ar7Zzzz9Khar7Zzzz20Sarb20Narb20Zzzz27Mani4ZzzzcMani9Zzzz36Avst3Zzzz7Avst16Prti2Zzzz8Prti13Phli
  5Zzzz8Phli12Phlp7Zzzz4PhlpcZzzz7Phlp50Zzzz49Orkh37Zzzz33HungdZzzz33Hung7Zzzz6Hung28Rohg8ZzzzaR
  ohg6Zzzz26Gara3Zzzz1dGara8Zzzz2Garad0Zzzz1fArabZzzz2aYeziZzzz3Yezi2Zzzz2Yezi10Zzzz6Arab8Zzzz9A
  rab21Zzzz6Arab28Sogo8Zzzz2aSogd16Zzzz1aOugr26Zzzz1cChrs14Zzzz17Elym9Zzzz4eBrah4Zzzz24Brah9Zzzz
  Brah43KthiaZzzzKthi2Zzzz19Sora7ZzzzaSora6Zzzz35CakmZzzz12Cakm8Zzzz27Mahj9Zzzz60ShrdZzzz14Sinhb
  Zzzz12KhojZzzz2fKhoj3eZzzz7MultZzzzMultZzzz4MultZzzzfMultZzzzbMult6Zzzz3bSind5ZzzzaSind6Zzzz4G
  ranZzzz8Gran2Zzzz2Gran2Zzzz16GranZzzz7GranZzzz2GranZzzz5GranZzzzZinh9Gran2Zzzz2Gran2Zzzz3Gran2
  ZzzzGran6ZzzzGran5Zzzz7Gran2Zzzz7Gran3Zzzz5GranbZzzzaTutgZzzzTutg2ZzzzTutgZzzz26TutgZzzzaTutgZ
  zzzTutg2ZzzzTutgZzzz4TutgZzzzaTutgZzzz2Tutg8Zzzz2Tutg1dZzzz5cNewaZzzz5Newa1eZzzz48Tirh8ZzzzaTi
  rha6Zzzz36Sidd2Zzzz26Sidd22Zzzz45ModibZzzzaModi6ZzzzdMong13Zzzz3aTakr6ZzzzaTakr6Zzzz14Mymr1cZz
  zz1bAhom2ZzzzfAhom4Zzzz17Ahomb9Zzzz3cDogr64Zzzz53WaracZzzzWara7Diak2ZzzzDiak2Zzzz8DiakZzzz2Dia
  kZzzz1eDiakZzzz2Diak2ZzzzcDiak9ZzzzaDiak46Zzzz8Nand2Zzzz2eNand2ZzzzbNand1bZzzz48Zanb8Zzzz53Soy
  odZzzz10Cans39Pauc7ZzzzaDeva56Zzzz8Shrd58Zzzz22SunueZzzzaSunu6Zzzz9BhksZzzz2dBhksZzzzeBhksaZzz
  z1dBhks3Zzzz20Marc2Zzzz16MarcZzzzeMarc49Zzzz7GonmZzzz2GonmZzzz2cGonm3ZzzzGonmZzzz2GonmZzzz9Gon
  m8ZzzzaGonm6Zzzz6GongZzzz2GongZzzz25GongZzzz2GongZzzz6Gong7ZzzzaGong6Zzzz2cTols4ZzzzaTolsf6Zzz
  z19Maka7Zzzz11KawiZzzz29Kawi3Zzzz1dKawi55ZzzzLisufZzzz32TamldZzzzTaml39aXsux66Zzzz6fXsuxZzzz5X
  suxbZzzzc4Xsuxa4cZzzz63CpmndZzzz456EgypaZzzzf9bEgyp5Zzzz247Hluw1ab9Zzzz3aGukh6c6Zzzz239Bamu7Zz
  zz1fMrooZzzzaMroo4Zzzz2Mroo4fTnsaZzzzaTnsa6Zzzz1eBass2Zzzz6BassaZzzz46HmngaZzzzaHmngZzzz7HmngZ
  zzz15Hmng5Zzzz13Hmng1b0Zzzz3aKraic6Zzzz5bMedf5Zzzz19Berf2Zzzz19Berf2cZzzz4bPlrd4Zzzz39Plrd7Zzz
  z11Plrd40ZzzzTangNshu2HaniKitsbZzzz7Hani9Zzzz1b00Tang1d6Kits29ZzzzKits1fTang61Zzzz73Tang21fdZz
  zz4KanaZzzz7KanaZzzz2KanaZzzzKana11fHira3KanafZzzzHira1dZzzz3Hira2ZzzzKanaeZzzz4Kana8Zzzz18cNs
  hu904Zzzz6bDupl5ZzzzdDupl3Zzzz9Dupl7ZzzzaDupl2Zzzz4Dupl4Zyyyf5cZzzzfdZyyy3Zzzz1b4Zyyy6Zzzz17Zy
  yyfZzzz11ZyyyfZzzz2eZinh2Zzzz17Zinh9Zzzz74Zyyy3cZzzzf6ZyyyaZzzz27Zyyy2Zzzz3eZyyy3Zinh11Zyyy8Zi
  nh2Zyyy7Zinh1eZyyy4Zinh3dZyyy15Zzzz46Grek7aZzzz14ZyyycZzzz14ZyyycZzzz57Zyyy9Zzzz19Zyyy87Zzzz55
  ZyyyZzzz47ZyyyZzzz2Zyyy2ZzzzZyyy2Zzzz2Zyyy2Zzzz4ZyyyZzzzcZyyyZzzzZyyyZzzz7ZyyyZzzz41ZyyyZzzz4Z
  yyy2Zzzz8ZyyyZzzz7ZyyyZzzz1cZyyyZzzz4ZyyyZzzz5ZyyyZzzzZyyy3Zzzz7ZyyyZzzz154Zyyy2Zzzz124Zyyy2Zz
  zz32Zyyy28cSgnwfZzzz5SgnwZzzzfSgnw450Zzzz1fLatn6Zzzz6Latnd5Zzzz7GlagZzzz11Glag2Zzzz7GlagZzzz2G
  lagZzzz5Glag5Zzzz3eCyrl21ZzzzCyrl70Zzzz2dHmnp3ZzzzeHmnp2ZzzzaHmnp4Zzzz2Hmnp140Zzzz1fToto11Zzzz
  3aWcho5ZzzzWcho1d0Zzzz2aNagmd6Zzzz2bOnao4ZzzzOnaoc0Zzzz1fTayoZzzz16Tayo8Zzzz2Tayoe0Zzzz7EthiZz
  zz4EthiZzzz2EthiZzzzfEthiZzzzc5Mend2Zzzz10Mend29Zzzz4cAdlm4ZzzzaAdlm4Zzzz2Adlm311Zzzz44Zyyy4cZ
  zzz3dZyyyc2Zzzz4ArabZzzz1bArabZzzz2ArabZzzzArab2ZzzzArabZzzzaArabZzzz4ArabZzzzArabZzzzArab6Zzz
  zArab4ZzzzArabZzzzArabZzzzArabZzzz3ArabZzzz2ArabZzzzArab2ZzzzArabZzzzArabZzzzArabZzzzArabZzzzA
  rabZzzz2ArabZzzzArab2Zzzz4ArabZzzz7ArabZzzz4ArabZzzz4ArabZzzzArabZzzzaArabZzzz11Arab5Zzzz3Arab
  Zzzz5ArabZzzz11Arab34Zzzz2Arab10eZzzz2cZyyy4Zzzz64ZyyycZzzzfZyyy2ZzzzfZyyyZzzzfZyyyZzzz25Zyyya
  ZzzzaeZyyy38Zzzz1aZyyyHira2ZyyydZzzz2cZyyy4Zzzz9Zyyy7Zzzz2ZyyyeZzzz6Zyyy9aZzzz3d9Zyyy3Zzzz11Zy
  yy3ZzzzdZyyy3ZzzzdaZyyy6ZzzzcZyyy4ZzzzZyyyfZzzzcZyyy4Zzzz38Zyyy8ZzzzaZyyy6Zzzz28Zyyy8Zzzz1eZyy
  y2ZzzzcZyyy4Zzzz2ZyyyeZzzz9Zyyy27Zzzz158Zyyy8ZzzzeZyyy2ZzzzdZyyy3ZzzzbZyyy3Zzzz39ZyyyZzzzZyyy4
  Zzzz10Zyyy2ZzzzcZyyy4ZzzzaZyyy7Zzzz93ZyyyZzzz67Zyyy405Zzzza6e0Hani20Zzzz111eHani2Zzzz168eHani2
  Zzzz1d31HanifZzzz26eHani9a2Zzzz21eHani5e2Zzzz134bHani5Zzzz212aHaniacb87ZzzzZyyy1eZzzz60Zyyy80Z
  zzzf0Zinh2fe10Zzzz"

/-- The ranges that are used by other scripts than their own, with the scripts that use them. -/
def sharedText : String :=
  "b7AvstCariCoptDuplElbaGeorGlagGongGothGrekHaniLatnLydiMahjPermShaw 
  2bcBengCyrlDevaLatnLisuThaiToto 2c7BopoLatn 2c9-2cbBopoLatn 2cdLatnLisu 2d7LatnThai 
  2d9BopoLatn 300CherCoptCyrlGrekLatnPermSunuTale 301CherCyrlGrekLatnOsgeSunuTaleTodr 
  302CherCyrlLatnTfng 303GlagLatnSunuSyrcThai 304AghbCherCoptCyrlGothGrekLatnOsgeSyrcTfngTodr 
  305CoptElbaGlagGothKanaLatn 306CyrlGrekLatnPermTfng 307CoptDuplHebrLatnPermSyrcTaleTfngTodr 
  308ArmnCyrlDuplGothGrekHebrLatnPermSyrcTaleTfng 309LatnTfng 30aDuplLatnSyrc 
  30bCherCyrlLatnOsge 30cCherLatnTale 30dLatnSunu 30eEthiLatn 310LatnSunu 311CyrlLatnTodr 
  313GrekLatnPermTodr 323CherDuplKanaLatnSyrcTfng 324CherDuplLatnSyrc 325LatnSyrc 
  32dLatnSunuSyrc 32eLatnSyrc 330CherLatnSyrc 331AghbCherGothLatnSunuSyrcThai 342Grek 345Grek 
  358LatnOsge 35eAghbLatnTodr 363-36fLatn 374-375CoptGrek 483CyrlPerm 484CyrlGlag 
  485-486CyrlLatn 487CyrlGlag 589ArmnGeorGlag 60cArabGaraNkooRohgSyrcThaaYezi 
  61bArabGaraNkooRohgSyrcThaaYezi 61cArabSyrcThaa 61fAdlmArabGaraNkooRohgSyrcThaaYezi 
  640AdlmArabMandManiOugrPhlpRohgSogdSyrc 64b-655ArabSyrc 660-669ArabThaaYezi 670ArabSyrc 
  6d4ArabRohg 951BengDevaGranGujrGuruKndaLatnMlymNandNewaOryaShrdTamlTeluTirh 
  952BengDevaGranGujrGuruKndaLatnMlymNewaOryaTamlTeluTirh 
  964BengDevaDogrGongGonmGranGujrGuruKndaMahjMlymNandOnaoOryaSindSinhSyloTakrTamlTeluTirh 
  965BengDevaDogrGongGonmGranGujrGukhGuruKndaLimbMahjMlymNandOnaoOryaSindSinhSyloTakrTamlTeluTirh 
  966-96fDevaDogrKthiMahj 9e6-9efBengCakmSylo a66-a6fGuruMult ae6-aefGujrKhoj be6-bf3GranTaml 
  ce6-cefKndaNandTutg 1040-1049CakmMymrTale 10fbGeorGlagLatn 16eb-16edRunr 
  1735-1736BuhdHanoTagbTglg 1802-1803MongPhag 1805MongPhag 1cd0BengDevaGranKnda 1cd1Deva 
  1cd2BengDevaGranKnda 1cd3DevaGranKnda 1cd4Deva 1cd5BengDevaNewaTeluTirh 1cd6BengDevaTelu 
  1cd7DevaNewaShrd 1cd8BengDevaNewaTelu 1cd9DevaShrd 1cdaDevaKndaMlymOryaTamlTelu 1cdbDeva 
  1cdc-1cddDevaShrd 1cde-1cdfDeva 1ce0DevaShrd 1ce1BengDeva 1ce2DevaNewaTirh 1ce3-1ce8Deva 
  1ce9DevaNandNewa 1ceaBengDevaShrd 1cebDevaNewa 1cecDeva 1cedBengDevaNewaShrd 1cee-1cf1Deva 
  1cf2BengDevaGranKndaMlymNandOryaSinhTeluTirhTutg 1cf3DevaGran 1cf4DevaGranKndaTutg 
  1cf5-1cf6BengDeva 1cf7Beng 1cf8-1cf9DevaGran 1cfaNand 1dc0-1dc1Grek 1df8CyrlLatnSyrc 1dfaSyrc 
  202fLatnMongPhag 204fAdlmArab 205aCariGeorGlagHungLyciOrkh 205dCariGrekHungMero 
  20f0DevaGranLatn 2e17CoptLatn 2e30AvstOrkh 2e31AvstCariGeorHungKthiLydiSamr 2e3cDupl 
  2e41AdlmArabHung 2e43CyrlGlag 2ff0-2fffHaniTang 3001BopoHangHaniHiraKanaMongYiii 
  3002BopoHangHaniHiraKanaMongPhagYiii 3003BopoHangHaniHiraKana 3006Hani 
  3008-3009BopoHangHaniHiraKanaMongTibtYiii 300a-300bBopoHangHaniHiraKanaLisuMongTibtYiii 
  300c-3011BopoHangHaniHiraKanaYiii 3013BopoHangHaniHiraKana 3014-301bBopoHangHaniHiraKanaYiii 
  301c-301fBopoHangHaniHiraKana 302a-302dBopoHani 3030BopoHangHaniHiraKana 3031-3035HiraKana 
  3037BopoHangHaniHiraKana 303c-303dHaniHiraKana 303e-303fHani 3099-309cHiraKana 30a0HiraKana 
  30fbBopoHangHaniHiraKanaYiii 30fcHiraKana 3190-319fHani 31c0-31e5Hani 31efHaniTang 
  3220-3247Hani 3280-32b0Hani 32c0-32cbHani 32ffHani 3358-3370Hani 337b-337fHani 33e0-33feHani 
  a66fCyrlGlag a700-a707HaniLatn 
  a830-a832DevaDogrGujrGuruKhojKndaKthiMahjMlymModiNandShrdSindTakrTirhTutg 
  a833-a835DevaDogrGujrGuruKhojKndaKthiMahjModiNandShrdSindTakrTirhTutg 
  a836-a837DevaDogrGujrGuruKhojKthiMahjModiSindTakrTirh 
  a838DevaDogrGujrGuruKhojKthiMahjModiShrdSindTakrTirh 
  a839DevaDogrGujrGuruKhojKthiMahjModiSindTakrTirh a8f1BengDevaTutg a8f3DevaTaml 
  a92eKaliLatnMymr a9cfBugiJava fd3e-fd3fArabNkoo fdf2ArabThaa fdfdArabThaa 
  fe45-fe46BopoHangHaniHiraKana ff61-ff65BopoHangHaniHiraKanaYiii ff70HiraKana 
  ff9e-ff9fHiraKana 10100-10101CpmnCprtLinb 10102CprtLinb 10107-10133CprtLinaLinb 
  10137-1013fCprtLinb 102e0-102fbArabCopt 10af2ManiOugr 11301GranTaml 11303GranTaml 
  1133b-1133cGranTaml 11fd0-11fd1GranTaml 11fd3GranTaml 1bca0-1bca3Dupl 1d360-1d371Hani 
  1f250-1f251Hani"

/-- The names of each script, its code first. -/
def nameText : String :=
  "Adlm.Adlam Aghb.Caucasian_Albanian Ahom.Ahom Arab.Arabic Armi.Imperial_Aramaic Armn.Armenian 
  Avst.Avestan Bali.Balinese Bamu.Bamum Bass.Bassa_Vah Batk.Batak Beng.Bengali Berf.Beria_Erfe 
  Bhks.Bhaiksuki Bopo.Bopomofo Brah.Brahmi Brai.Braille Bugi.Buginese Buhd.Buhid Cakm.Chakma 
  Cans.Canadian_Aboriginal Cari.Carian Cham.Cham Cher.Cherokee Chrs.Chorasmian Copt.Coptic.Qaac 
  Cpmn.Cypro_Minoan Cprt.Cypriot Cyrl.Cyrillic Deva.Devanagari Diak.Dives_Akuru Dogr.Dogra 
  Dsrt.Deseret Dupl.Duployan Egyp.Egyptian_Hieroglyphs Elba.Elbasan Elym.Elymaic Ethi.Ethiopic 
  Gara.Garay Geor.Georgian Glag.Glagolitic Gong.Gunjala_Gondi Gonm.Masaram_Gondi Goth.Gothic 
  Gran.Grantha Grek.Greek Gujr.Gujarati Gukh.Gurung_Khema Guru.Gurmukhi Hang.Hangul Hani.Han 
  Hano.Hanunoo Hatr.Hatran Hebr.Hebrew Hira.Hiragana Hluw.Anatolian_Hieroglyphs 
  Hmng.Pahawh_Hmong Hmnp.Nyiakeng_Puachue_Hmong Hung.Old_Hungarian Ital.Old_Italic 
  Java.Javanese Kali.Kayah_Li Kana.Katakana Kawi.Kawi Khar.Kharoshthi Khmr.Khmer Khoj.Khojki 
  Kits.Khitan_Small_Script Knda.Kannada Krai.Kirat_Rai Kthi.Kaithi Lana.Tai_Tham Laoo.Lao 
  Latn.Latin Lepc.Lepcha Limb.Limbu Lina.Linear_A Linb.Linear_B Lisu.Lisu Lyci.Lycian 
  Lydi.Lydian Mahj.Mahajani Maka.Makasar Mand.Mandaic Mani.Manichaean Marc.Marchen 
  Medf.Medefaidrin Mend.Mende_Kikakui Merc.Meroitic_Cursive Mero.Meroitic_Hieroglyphs 
  Mlym.Malayalam Modi.Modi Mong.Mongolian Mroo.Mro Mtei.Meetei_Mayek Mult.Multani Mymr.Myanmar 
  Nagm.Nag_Mundari Nand.Nandinagari Narb.Old_North_Arabian Nbat.Nabataean Newa.Newa Nkoo.Nko 
  Nshu.Nushu Ogam.Ogham Olck.Ol_Chiki Onao.Ol_Onal Orkh.Old_Turkic Orya.Oriya Osge.Osage 
  Osma.Osmanya Ougr.Old_Uyghur Palm.Palmyrene Pauc.Pau_Cin_Hau Perm.Old_Permic Phag.Phags_Pa 
  Phli.Inscriptional_Pahlavi Phlp.Psalter_Pahlavi Phnx.Phoenician Plrd.Miao 
  Prti.Inscriptional_Parthian Rjng.Rejang Rohg.Hanifi_Rohingya Runr.Runic Samr.Samaritan 
  Sarb.Old_South_Arabian Saur.Saurashtra Sgnw.SignWriting Shaw.Shavian Shrd.Sharada 
  Sidd.Siddham Sidt.Sidetic Sind.Khudawadi Sinh.Sinhala Sogd.Sogdian Sogo.Old_Sogdian 
  Sora.Sora_Sompeng Soyo.Soyombo Sund.Sundanese Sunu.Sunuwar Sylo.Syloti_Nagri Syrc.Syriac 
  Tagb.Tagbanwa Takr.Takri Tale.Tai_Le Talu.New_Tai_Lue Taml.Tamil Tang.Tangut Tavt.Tai_Viet 
  Tayo.Tai_Yo Telu.Telugu Tfng.Tifinagh Tglg.Tagalog Thaa.Thaana Thai.Thai Tibt.Tibetan 
  Tirh.Tirhuta Tnsa.Tangsa Todr.Todhri Tols.Tolong_Siki Toto.Toto Tutg.Tulu_Tigalari 
  Ugar.Ugaritic Vaii.Vai Vith.Vithkuqi Wara.Warang_Citi Wcho.Wancho Xpeo.Old_Persian 
  Xsux.Cuneiform Yezi.Yezidi Yiii.Yi Zanb.Zanabazar_Square Zinh.Inherited.Qaai Zyyy.Common"

/-- Reads runs: the first code point of each with the code of its script. -/
def readRuns (start length : Nat) : List Char → List (Nat × List Char)
  | a :: b :: c :: d :: cs =>
    match CharSet.hexValue? a with
    | some n => readRuns start (16 * length + n) (b :: c :: d :: cs)
    | none => (start, [a, b, c, d]) :: readRuns (start + max 1 length) 0 cs
  | _ => []

/-- The runs of the table. -/
def runs : List (Nat × List Char) := readRuns 0 0 (runText.toList.filter (!·.isWhitespace))

/-- The codes that a text consists of, four characters each. -/
def codes : List Char → List (List Char)
  | a :: b :: c :: d :: cs => [a, b, c, d] :: codes cs
  | _ => []

/-- The shared ranges, with the codes of the scripts that use them. -/
def shared : List ((Nat × Nat) × List (List Char)) :=
  (CharSet.words sharedText).map fun w ↦
    (CharSet.rangeOfText (w.takeWhile (!·.isUpper)), codes (w.dropWhile (!·.isUpper)))

/-- The places where membership in a script changes. -/
def flips (code : List Char) : Bool → List (Nat × List Char) → List Nat
  | _, [] => []
  | inside, (start, c) :: rest =>
    if (c == code) == inside then flips code inside rest
    else start :: flips code (c == code) rest

/-- The characters of the script with a code. -/
def charSet (code : List Char) : CharSet := ⟨flips code false runs⟩

/-- The characters that the script with a code uses. -/
def extension (code : List Char) : CharSet :=
  let ranges := fun (xs : List ((Nat × Nat) × List (List Char))) ↦
    CharSet.unions (xs.map fun ((lo, hi), _) ↦ .range lo hi)
  ((charSet code).diff (ranges shared)).union (ranges (shared.filter (·.2.contains code)))

/-- The code and the names of each script, the names in lower case without separators. -/
def names : List (List Char × List (List Char)) :=
  (CharSet.words nameText).map fun w ↦
    let ns := w.splitBy (fun a b ↦ a != '.' && b != '.') |>.filter (· != ['.'])
    (ns.headD [], ns.map fun n ↦ (n.filter (· != '_')).map Char.toLower)

/-- The code of the script with a name. -/
def ofName? (name : String) : Option (List Char) :=
  (names.find? fun (_, ns) ↦ ns.contains name.toList).map (·.1)

end Script

end RequestCondition
